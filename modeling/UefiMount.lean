import UefiMount.LoopReadFidelity
import UefiMount.LoopVendorNode
import UefiMount.VolumeReports
import UefiMount.ConnectSafety
import UefiMount.ExitContract
import UefiMount.FatRecovery
import UefiMount.FatLongNames
import UefiMount.FatShortNames
import UefiMount.FatConflicts
import UefiMount.LoopImageSniff
import UefiMount.SelfRelativePaths
import UefiMount.QmpReplies
import UefiMount.QmpFrames
import UefiMount.Ext4Creation
import UefiMount.DriverSuffix
import UefiMount.FatCapacity
import UefiMount.FatLegalNames
import UefiMount.LaunchOwnership
import UefiMount.FatScan
import UefiMount.FatLeftovers
import UefiMount.FatPathReads
import UefiMount.FatLostClusters
import UefiMount.ShellMapRuns
import UefiMount.FormatLookup
import UefiMount.QmpDelivery
