import CommonTools.Transfer.Provenance
import CommonTools.Transfer.Rollback
import CommonTools.Transfer.Collisions
import CommonTools.Transfer.Libraries
import CommonTools.Transfer.BrokerChecks
import CommonTools.Transfer.Directories
import CommonTools.Transfer.LibraryDiscovery
import CommonTools.Backend.Extraction
import CommonTools.Backend.PidFile
import CommonTools.Backend.Sweep
import CommonTools.Backend.Cleanups
import CommonTools.Backend.RoundTrip
import CommonTools.FeDaemon.Truncation
import CommonTools.FeDaemon.Instances
import CommonTools.FeDaemon.ChildSignals
import CommonTools.Interface.Validity
import CommonTools.Interface.Signals
import CommonTools.Placement.Components
import CommonTools.Placement.GenericSsh
import CommonTools.Placement.FirstRanks
import CommonTools.Placement.NodeNames
import CommonTools.Applications.Leaks
import CommonTools.Applications.PrefixLists
import CommonTools.Applications.JobSpellings
import CommonTools.Remote.Commands
import CommonTools.Remote.Jobs
import CommonTools.Slurm.QuotedArgs
import CommonTools.Slurm.EnvSpec
import CommonTools.Slurm.Steps
import CommonTools.Shim.Transparency
import CommonTools.Interface.Symbols
import CommonTools.Pals.HostFile
import CommonTools.Pals.Preload
import CommonTools.Pals.Lookup
import CommonTools.Slurm.NodeLookup
import CommonTools.Useful.ExitStatus
import CommonTools.Useful.Removal
import CommonTools.Remote.Channels
import CommonTools.Applications.Aprun
import CommonTools.Applications.LocalLaunch
import CommonTools.FeDaemon.Inferior
