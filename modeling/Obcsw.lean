import Obcsw.Batch
import Obcsw.CommandDrain
import Obcsw.Comparison
import Obcsw.Finals
import Obcsw.Ground
import Obcsw.Handover
import Obcsw.Histories
import Obcsw.Launch
import Obcsw.Quiescence
import Obcsw.Settings
import Obcsw.Simulated
import Obcsw.StartFailure
import Obcsw.TelemetryDocuments
import Obcsw.Termination
import Obcsw.Thresholds
import Obcsw.UplinkPaths
