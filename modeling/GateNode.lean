import GateNode.Lock.Commands
import GateNode.Http.Access
import GateNode.Http.Login
import GateNode.Ota.BootImage
import GateNode.Ota.AfterUpload
import GateNode.Ota.Buffers
import GateNode.Ota.Delivery
import GateNode.Ota.Refinement
import GateNode.Http.History
import GateNode.Http.Timeout
import GateNode.Http.Complete
import GateNode.Lock.Stranded
import GateNode.Lock.Deadlock
import GateNode.Discovery.SoftAp
import GateNode.Discovery.Transport
import GateNode.Discovery.Channel
import GateNode.Boot.Consumers
import GateNode.Ota.Handles
import GateNode.Lib.Dotted
import GateNode.Ota.Version
import GateNode.Lock.Drives
import GateNode.Lock.SoftStart
import GateNode.Lock.Stroke
import GateNode.Lock.Duplicates
import GateNode.Discovery.Rediscovery
import GateNode.Http.Pieces
import GateNode.Ota.Split
import GateNode.Http.Refused
import GateNode.Http.Undelivered
import GateNode.Discovery.Scan
import GateNode.Http.Resource
import GateNode.Ota.GiveBack
import GateNode.Ota.Residue
import GateNode.Gui.System
import GateNode.Gui.Display
import GateNode.Lock.Settle
import GateNode.Gate.Messages
import GateNode.Gate.Answers
import GateNode.Web.Redirect
import GateNode.Web.Update
import GateNode.Web.Admission
import GateNode.Ota.Device
import GateNode.Ota.Lifetime
import GateNode.Ota.Restart
import GateNode.Discovery.Search
import GateNode.Gui.Labels
import GateNode.Http.Guess
import GateNode.Http.KeepAlive
