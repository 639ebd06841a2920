import MoonLightBridge.Protocol.MetadataReencoding
import MoonLightBridge.System.Handshake
import MoonLightBridge.System.CompressionAgreement
import MoonLightBridge.System.RequestPath
import MoonLightBridge.System.InFlight
import MoonLightBridge.System.StreamCredit
import MoonLightBridge.Server.StreamLimit
import MoonLightBridge.Server.CreditSemaphore
import MoonLightBridge.Server.IdempotencyRuns
import MoonLightBridge.Server.Drain
import MoonLightBridge.Server.Goodbye
import MoonLightBridge.Server.GracefulDrain
import MoonLightBridge.Server.CancellationSignal
import MoonLightBridge.Server.Continuations
import MoonLightBridge.Server.Telemetry
import MoonLightBridge.Server.Revisioned
import MoonLightBridge.Client.Supervision
import MoonLightBridge.Client.SupervisorClosing
import MoonLightBridge.Client.ListenerAgreement
import MoonLightBridge.Client.Permits
import MoonLightBridge.Client.ClientDrain
import MoonLightBridge.Client.StreamFlow
import MoonLightBridge.Client.WriteOrder
import MoonLightBridge.Codegen.Evolution
import MoonLightBridge.Codegen.EnumCompatibility
import MoonLightBridge.Codegen.Frontends
import MoonLightBridge.Codegen.Numbering
import MoonLightBridge.Codegen.WireIds
import MoonLightBridge.Client.FirstConnection
import MoonLightBridge.Client.ReconnectBackoff
import MoonLightBridge.Observability.Exporter
