import Dipp.Config.Coherence
import Dipp.Config.Decoding
import Dipp.Config.Exactness
import Dipp.Config.Recovery
import Dipp.Config.Rejection
import Dipp.Control.Capacity
import Dipp.Control.Commands
import Dipp.Control.Completion
import Dipp.Control.FailedStart
import Dipp.Control.Loggers
import Dipp.Control.Progress
import Dipp.Dtp.Observations
import Dipp.Dtp.Ownership
import Dipp.Dtp.Reach
import Dipp.Dtp.Snapshots
import Dipp.Dtp.Survival
import Dipp.Process.Attaching
import Dipp.Process.Attribution
import Dipp.Process.Blocking
import Dipp.Process.Contract
import Dipp.Process.Descriptors
import Dipp.Process.Interleaving
import Dipp.Process.Leaks
import Dipp.Process.Modes
import Dipp.Process.Oversized
import Dipp.Process.Receive
import Dipp.Process.Reports
import Dipp.Process.Segments
import Dipp.Process.Success
import Dipp.Remote.Contents
import Dipp.Remote.Eviction
import Dipp.Remote.Locating
import Dipp.Remote.Publication
import Dipp.Upload.Saving
