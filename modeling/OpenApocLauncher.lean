import OpenApocLauncher.Config
import OpenApocLauncher.ConfigTypes
import OpenApocLauncher.AssetUnzipper
import OpenApocLauncher.UnpackEffects
import OpenApocLauncher.Preloader
import OpenApocLauncher.UnpackRecord
import OpenApocLauncher.UpdateDetection
import OpenApocLauncher.ContentChange
import OpenApocLauncher.LaunchGate
import OpenApocLauncher.Exclusion
import OpenApocLauncher.Md5
import OpenApocLauncher.Radix
import OpenApocLauncher.TypedStore
import OpenApocLauncher.RecordTracking
import OpenApocLauncher.CrashConsistency
import OpenApocLauncher.UnpackOverlay
import OpenApocLauncher.IsoChecker
import OpenApocLauncher.IsoSelection
import OpenApocLauncher.UnpackOutcome
import OpenApocLauncher.DataDirUpdates
import OpenApocLauncher.ConfigMap
import OpenApocLauncher.Extraction
import OpenApocLauncher.DirectoryEntries
import OpenApocLauncher.Containment
import OpenApocLauncher.Convergence
import OpenApocLauncher.Regex
import OpenApocLauncher.Utf16
import OpenApocLauncher.FileChooser
import OpenApocLauncher.Browsing
import OpenApocLauncher.IsoProgress
import OpenApocLauncher.ConfigScreen
import OpenApocLauncher.Provenance
import OpenApocLauncher.UnpackProgress
import OpenApocLauncher.Playable
import OpenApocLauncher.Phone
