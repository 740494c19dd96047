/-
Whether what arrives during the start finds its consumer: the lock's
functions, its motor channels, the events of HTTP_SERVER. Each opens to
messages or requests before the last of what it needs is there.
-/
import GateNode.Boot.System

namespace GateNode.Boot

/-! ## What may go wrong -/

/-- The handler of a message calls a null pointer. -/
def System.CallsNull (s : System) : Event → Prop
  | .message m => .messageCodecInit ∉ s.pending ∧
      ∃ f ∈ routineMessageCodecEventsHandler m, .storeLockFunction f ∉ s.done
  | _ => False

/-- `lock_task` drives a channel that `lock_drive_init` has not configured. -/
def System.DrivesUnconfigured (s : System) : Event → Prop
  | .lock .taskCall => .lockDriveInit ∉ s.done ∧ ∃ call, s.lock.calls.head? = some (.ledc call)
  | _ => False

/-- An upload posts before the events of HTTP_SERVER are registered. -/
def System.PostsUnregistered (s : System) : Event → Prop
  | .post => ¬ s.Registered ∧ s.posts ≠ []
  | _ => False

def System.Faulty (s : System) (e : Event) : Prop :=
  s.CallsNull e ∨ s.DrivesUnconfigured e ∨ s.PostsUnregistered e

/-! ## What has to wait -/

/-- A command waits for the pointer and the drive, an upload for the four events. -/
def System.Admits (s : System) : Event → Prop
  | .message m => ∀ f ∈ routineMessageCodecEventsHandler m,
      .storeLockFunction f ∈ s.done ∧ (f.request.isSome → .lockDriveInit ∈ s.done)
  | .request r => r.events ≠ [] → s.Registered
  | _ => True

/-- A message or a request. -/
def Event.Arrives : Event → Prop
  | .message _ | .request _ => True
  | _ => False

theorem System.admits_of_not_arrives {e : Event} (he : ¬ e.Arrives) (s : System) : s.Admits e := by
  cases e with
  | message | request => exact absurd trivial he
  | init | lock | post => trivial

/-- Until the drive is there the lock is as it was at boot. -/
structure System.Ok (s : System) : Prop where
  untouched : .lockDriveInit ∉ s.done → ∃ hold, s.lock = .boot hold
  registered : s.posts ≠ [] → s.Registered

theorem System.Ok.boot : System.boot.Ok where
  untouched _ := ⟨0, rfl⟩
  registered h := absurd rfl h

/-- Left to itself, the lock does nothing after its boot. -/
theorem lock_boot_step {d : Lock.LockDriveState} {hold : UInt32} {e : Lock.Event} (he : ∀ r, e ≠ .userSend r) :
    (Lock.System.boot hold).step d e = none := by
  cases e with
  | userSend r => exact absurd rfl (he r)
  | timerExpire | callbackSend | taskReceive | taskAssign | taskCall => rfl

theorem System.Ok.succeed {s : System} (h : s.Ok) (x : InitStep) (rest : List InitStep) : (s.succeed x rest).Ok := by
  have hdone : (s.succeed x rest).done = s.done ++ [x] := by
    unfold System.succeed
    split <;> rfl
  have hposts : (s.succeed x rest).posts = s.posts := by
    unfold System.succeed
    split <;> rfl
  constructor
  · intro hd
    rw [hdone, List.mem_append, not_or] at hd
    obtain ⟨hold, hlock⟩ := h.untouched hd.1
    unfold System.succeed
    split
    · next ms =>
      refine ⟨ms, ?_⟩
      show { s.lock with lock.unlockHoldDuration := ms } = Lock.System.boot ms
      rw [hlock]
      rfl
    · exact ⟨hold, hlock⟩
  · intro hp e he
    rw [hposts] at hp
    rw [hdone]
    exact List.mem_append_left _ (h.registered hp e he)

theorem System.Ok.fail {s : System} (h : s.Ok) (x : InitStep) (rest : List InitStep) (f : Failure) :
    (s.fail x rest f).Ok := by
  cases f with
  | ignored | returns => exact ⟨h.untouched, h.registered⟩
  | panics => exact .boot

theorem System.Ok.step {s t : System} {e : Event} (h : s.Ok) (ha : s.Admits e) (hs : Step s e t) : t.Ok := by
  cases hs with
  | succeed x rest => exact h.succeed x rest
  | fail x rest _ f => exact h.fail x rest f
  | ignore | status => exact h
  | nullCall => exact .boot
  | command m _ f hm _ r hr l =>
    have hd : .lockDriveInit ∈ s.done := (ha f hm).2 (by rw [hr]; rfl)
    exact ⟨fun hn => absurd hd hn, h.registered⟩
  | lock e he l hl =>
    refine ⟨fun hn => ?_, h.registered⟩
    obtain ⟨hold, hlock⟩ := h.untouched hn
    rw [hlock, lock_boot_step he] at hl
    cases hl
  | request r => exact ⟨h.untouched, ha⟩
  | post e rest hp =>
    refine ⟨h.untouched, fun _ => ?_⟩
    have hr : s.Registered := h.registered (by rw [hp]; exact List.cons_ne_nil e rest)
    exact hr

theorem System.Ok.not_faulty {s : System} {e : Event} (h : s.Ok) (ha : s.Admits e) : ¬ s.Faulty e := by
  rintro (hn | hd | hp)
  · cases e with
    | message m =>
      obtain ⟨-, f, hf, hn⟩ := hn
      exact hn (ha f hf).1
    | init | lock | request | post => exact hn
  · cases e with
    | lock e =>
      cases e with
      | taskCall =>
        obtain ⟨hd, call, hc⟩ := hd
        obtain ⟨hold, hlock⟩ := h.untouched hd
        rw [hlock] at hc
        cases hc
      | userSend | timerExpire | callbackSend | taskReceive | taskAssign => exact hd
    | init | message | request | post => exact hd
  · cases e with
    | post => exact hp.1 (h.registered hp.2)
    | init | message | lock | request => exact hp

/-! ## What follows where it does not wait -/

/-- A command that came too early is received, and `lock_task` drives for it. -/
theorem command_drives {s : System} {hold : UInt32} (hlock : s.lock = .boot hold) (hd : .lockDriveInit ∉ s.done)
    {r : Lock.Request} {l : Lock.System} (hl : s.lock.step s.drive (.userSend r) = some l) :
    ∃ t, Lts.exec System.step { s with lock := l } [.lock .taskReceive, .lock .taskAssign] = some t ∧
      t.DrivesUnconfigured (.lock .taskCall) := by
  rw [hlock] at hl
  cases r with
  | motorOpen | motorClose =>
    cases hl
    exact ⟨_, rfl, hd, _, rfl⟩

/-- An admitted run followed by a step that is not admitted can go on, with no message or request
more, to something that goes wrong. -/
theorem System.Ok.faulty_next {s t : System} {e : Event} (h : s.Ok) (ha : ¬ s.Admits e) (hs : s.step e = some t) :
    s.Faulty e ∨ ∃ ds d u, (∀ d' ∈ ds ++ [d], ¬ d'.Arrives) ∧ Lts.exec System.step t ds = some u ∧ u.Faulty d := by
  cases System.step_cases hs with
  | succeed | fail | lock | post => exact absurd trivial ha
  | ignore m _ hm => exact absurd (fun f hf => by rw [hm] at hf; cases hf) ha
  | nullCall m hc f hm hf => exact .inl (.inl ⟨hc, f, hm, hf⟩)
  | status m hc f hm hf hr =>
    refine absurd (fun g hg => ?_) ha
    rw [hm, Option.mem_def, Option.some.injEq] at hg
    subst hg
    exact ⟨hf, fun hsome => by rw [hr] at hsome; cases hsome⟩
  | command m hc f hm hf r hr l hl =>
    have hd : .lockDriveInit ∉ s.done := by
      refine fun hd => ha fun g hg => ?_
      rw [hm, Option.mem_def, Option.some.injEq] at hg
      subst hg
      exact ⟨hf, fun _ => hd⟩
    obtain ⟨hold, hlock⟩ := h.untouched hd
    obtain ⟨u, hu, hdrive⟩ := command_drives hlock hd hl
    exact .inr ⟨[.lock .taskReceive, .lock .taskAssign], .lock .taskCall, u, by simp [Event.Arrives], hu,
      .inr (.inl hdrive)⟩
  | request r hp _ hu =>
    have ha : r.events ≠ [] ∧ ¬ s.Registered := Classical.not_imp.mp ha
    exact .inr ⟨[], .post, _, by simp [Event.Arrives], rfl, .inr (.inr ⟨ha.2, ha.1⟩)⟩

/-! ## The run -/

/-- **Consumers come first exactly when what arrives waits for them**: in a run every message and
request waits for what it needs just when no part of the run can go on, with no message or request
more, to a null call, an unconfigured channel driven or an upload event posted unregistered. -/
theorem consumers_first_iff {es : List Event} {s : System} (h : run es = some s) :
    Lts.Along System.step System.Admits .boot es ↔
      ∀ pre rest, pre <+: es → (∀ e ∈ rest, ¬ e.Arrives) →
        Lts.Along System.step (fun s e => ¬ s.Faulty e) .boot (pre ++ rest) := by
  have hstep : ∀ t e u, t.Ok → t.Admits e → System.step t e = some u → u.Ok :=
    fun t e u ht ha hu => ht.step ha (System.step_cases hu)
  constructor
  · rintro ha pre rest ⟨post, rfl⟩ hrest
    obtain ⟨t, ht, -⟩ := Lts.exec_append_eq_some.mp h
    have hpre : Lts.Along System.step System.Admits .boot pre := ha.of_append
    have hadm : Lts.Along System.step System.Admits .boot (pre ++ rest) :=
      (Lts.along_append ht).mpr ⟨hpre, Lts.along_of_forall fun e he => System.admits_of_not_arrives (hrest e he)⟩
    exact hadm.of_invariant .boot hstep fun t e ht ha => ht.not_faulty ha
  · intro hf
    refine Lts.exec_history (I := fun es _ => (∀ pre rest, pre <+: es → (∀ e ∈ rest, ¬ e.Arrives) →
        Lts.Along System.step (fun s e => ¬ s.Faulty e) .boot (pre ++ rest)) →
      Lts.Along System.step System.Admits .boot es) h (fun _ => trivial) ?_ hf
    intro es t e u ht ih hu hf
    have hes : Lts.Along System.step System.Admits .boot es :=
      ih fun pre rest hpre => hf pre rest (hpre.trans (List.prefix_append es [e]))
    refine (Lts.along_snoc ht).mpr ⟨hes, ?_⟩
    by_contra ha
    have hok : t.Ok := Lts.exec_invariant_along ht hes .boot hstep
    have hsnoc : Lts.exec System.step .boot (es ++ [e]) = some u := Lts.exec_snoc.mpr ⟨t, ht, hu⟩
    rcases hok.faulty_next ha hu with hnow | ⟨ds, d, v, hds, hv, hlater⟩
    · have := hf (es ++ [e]) [] (List.prefix_refl _) nofun
      rw [List.append_nil, Lts.along_snoc ht] at this
      exact this.2 hnow
    · have := hf (es ++ [e]) (ds ++ [d]) (List.prefix_refl _) hds
      rw [← List.append_assoc, Lts.along_snoc (Lts.exec_append_eq_some.mpr ⟨u, hsnoc, hv⟩)] at this
      exact this.2 hlater

/-- The whole of `app_main`, and a command after it. -/
theorem consumers_first_command :
    ∃ s, run (.replicate appMain.length (.init true) ++ [.message .commandOpenGate]) = some s ∧
      (Lts.Along System.step System.Admits .boot
          (.replicate appMain.length (.init true) ++ [.message .commandOpenGate]) ↔
        ∀ pre rest, pre <+: .replicate appMain.length (.init true) ++ [.message .commandOpenGate] →
          (∀ e ∈ rest, ¬ e.Arrives) →
            Lts.Along System.step (fun s e => ¬ s.Faulty e) .boot (pre ++ rest)) :=
  ⟨_, rfl, consumers_first_iff rfl⟩

/-- Right after `message_codec_init` a command calls a null pointer; with the pointers stored and the
drive not yet initialised `lock_task` drives for it; and an upload taken once its URI is registered
posts while no event is. -/
theorem consumers_late :
    (∃ s, run (.replicate 12 (.init true)) = some s ∧ s.CallsNull (.message .commandOpenGate)) ∧
      (∃ s, run (.replicate 20 (.init true) ++
          [.message .commandOpenGate, .lock .taskReceive, .lock .taskAssign]) = some s ∧
        s.DrivesUnconfigured (.lock .taskCall)) ∧
      ∃ s, run (.replicate 45 (.init true) ++ [.request (.otaUpload ⟨none, 0⟩ [])]) = some s ∧
        s.PostsUnregistered .post :=
  ⟨⟨_, rfl, by decide, .setLockOpen, rfl, by decide⟩, ⟨_, rfl, by decide, _, rfl⟩, ⟨_, rfl, by decide, by decide⟩⟩

end GateNode.Boot
