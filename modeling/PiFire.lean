import PiFire.Safety.Proof
import PiFire.Safety.Flame
import PiFire.Cook.Setpoint
import PiFire.Cook.Refusal
import PiFire.Restart.Lifetimes
import PiFire.Arbiter.Latch
import PiFire.Settings.Repair
import PiFire.Rules.Held
import PiFire.Rules.Edge
import PiFire.Rules.Ended
import PiFire.Runner.HandOver
import PiFire.Cook.AfterAction
import PiFire.Rules.Meaning
import PiFire.Recipes.Running
import PiFire.Backup.Prune
import PiFire.Backup.Whole
import PiFire.Backup.Schedule
import PiFire.Probes.Safe
import PiFire.Ble.Stray
import PiFire.Tuning.Ended
import PiFire.Tuning.Restored
import PiFire.Fuel.Booked
import PiFire.Probes.Marks
import PiFire.Meat.Steps
import PiFire.Meat.TakeOff
import PiFire.Safety.CoolFan
import PiFire.History.Kept
import PiFire.History.CookKept
import PiFire.Rules.Deadband
import PiFire.Rules.Timed
import PiFire.Control.CookTimer
import PiFire.Rules.Chatter
import PiFire.Settings.Adopt
import PiFire.Settings.Laws
import PiFire.Recipes.OldFields
import PiFire.Recipes.Reimport
import PiFire.Live.Told
import PiFire.Tuning.Provenance
import PiFire.Fan.Order
import PiFire.Backup.Shares
import PiFire.Update.SemVer
import PiFire.Controllers.Refined
import PiFire.Controllers.Smith
import PiFire.Controllers.Feed
import PiFire.Ble.Heard
import PiFire.Tuning.FeedForward
import PiFire.Tuning.Climb
import PiFire.Probes.Filter
import PiFire.History.CookLog
import PiFire.Web.Body
import PiFire.Push.SendAll
import PiFire.Display.Answer
import PiFire.Probes.Shh
import PiFire.Display.Encoder
import PiFire.Swing.Halves
import PiFire.Update.Jobs
import PiFire.Update.Sha256
import PiFire.Net.Wifi
import PiFire.Net.Joining
import PiFire.Web.Logs
