import NyanShopBot.Khommo.SendsOnce
import NyanShopBot.Py.Json
import NyanShopBot.Conc.System
import NyanShopBot.Conc.Session
import NyanShopBot.Orders.Confirmation
import NyanShopBot.Orders.Delivery
import NyanShopBot.Orders.PayloadCodec
import NyanShopBot.VietShare.Outcome
import NyanShopBot.VietShare.Dispatches
import NyanShopBot.VietShare.Delivered
import NyanShopBot.VietShare.SignedRuns
import NyanShopBot.Orchestrator.ClaimLedger
import NyanShopBot.Orchestrator.LeaseSafety
import NyanShopBot.Orchestrator.Results
import NyanShopBot.Orchestrator.ActivityTail
import NyanShopBot.Orchestrator.CiGate
import NyanShopBot.Admin.Saveable
import NyanShopBot.Catalog.CurationLock
import NyanShopBot.Bot.Callbacks
import NyanShopBot.Bot.Labels
import NyanShopBot.VietShare.ReadRetries
import NyanShopBot.Catalog.LiveReaders
import NyanShopBot.Orchestrator.ViewerSessions
import NyanShopBot.Roboticvn.Segments
import NyanShopBot.Orders.FakeRuns
import NyanShopBot.Orchestrator.AuditLog
import NyanShopBot.Bot.StorefrontHandlers
import NyanShopBot.Orchestrator.RunnerSafety
