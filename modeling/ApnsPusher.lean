import ApnsPusher.Store.Interference
import ApnsPusher.Store.Reading
import ApnsPusher.Store.Ledgers
import ApnsPusher.NegativeCache
import ApnsPusher.LastPut
import ApnsPusher.Worker.Acknowledge
import ApnsPusher.Worker.Counters
import ApnsPusher.APNS.Shutdown
import ApnsPusher.APNS.Gateway
import ApnsPusher.App.Lifetimes
import ApnsPusher.App.Delivery
import ApnsPusher.App.Pacing
import ApnsPusher.App.Notified
import ApnsPusher.App.Draining
import ApnsPusher.Fanout
import ApnsPusher.Lifecycle
