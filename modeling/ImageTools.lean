import ImageTools.CommandLine.Run
import ImageTools.FileSystem.Tree
import ImageTools.Main
import ImageTools.Proofs.Writing
import ImageTools.Proofs.SettingLayers
import ImageTools.Proofs.ScriptLines
import ImageTools.Tool.Launch
import ImageTools.Proofs.SingleMerge
import ImageTools.Proofs.ArchiveMerge
import ImageTools.Proofs.Quoting
import ImageTools.Proofs.StepTokens
import ImageTools.Proofs.Parsing
import ImageTools.Proofs.ScriptCommands
import ImageTools.Proofs.Trace
import ImageTools.Proofs.Arguments
import ImageTools.Proofs.ScriptRun
import ImageTools.Proofs.SyncRun
import ImageTools.Proofs.Opening
import ImageTools.Proofs.Footprint
import ImageTools.Proofs.SingleCopy
import ImageTools.Proofs.ScriptFiles
import ImageTools.Proofs.ConcurrentMerges
import ImageTools.Proofs.TreePaths
import ImageTools.Proofs.PlacesApart
import ImageTools.Proofs.SetCommands
import ImageTools.Proofs.SetLocation
import ImageTools.Proofs.DiskImage
import ImageTools.Proofs.DebuggerCommands
import ImageTools.Proofs.UnsupportedTags
import ImageTools.Proofs.SettingFlags
import ImageTools.Proofs.SettingReach
import ImageTools.Proofs.DocumentText
import ImageTools.Proofs.ManifestText
import ImageTools.Proofs.DirectiveText
import ImageTools.Proofs.ManifestSearch
import ImageTools.Proofs.FirstFailure
import ImageTools.Proofs.EmulatorLine
import ImageTools.Proofs.ScriptModes
import ImageTools.Proofs.SingleSlashes
import ImageTools.Proofs.ShownMessages
import ImageTools.Proofs.ManifestKeys
import ImageTools.Proofs.EmptyValues
import ImageTools.Proofs.BuiltScripts
import ImageTools.Proofs.ScriptProcess
