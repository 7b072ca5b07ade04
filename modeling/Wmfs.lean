import Wmfs.Lib.Transition
import Wmfs.Ring.Record
import Wmfs.Ring.Model
import Wmfs.Ring.Calls
import Wmfs.Ring.Fifo
import Wmfs.Ring.Wakeup
import Wmfs.Lib.Dict
import Wmfs.Lib.Keys
import Wmfs.Access.Model
import Wmfs.Access.Spec
import Wmfs.Access.Exclusion
import Wmfs.Access.Cancellation
import Wmfs.Access.Queueing
import Wmfs.Lib.Extents
import Wmfs.Memory.Arena
import Wmfs.Memory.Pool
import Wmfs.Session.Dispatcher
import Wmfs.Session.Matching
import Wmfs.Session.Progress
import Wmfs.Session.CacheAgreement
import Wmfs.System.Model
import Wmfs.System.Handover
import Wmfs.Lib.Bytes
import Wmfs.Lib.Utf8
import Wmfs.Ring.Codec
import Wmfs.Ring.Layout
import Wmfs.Ring.RoundTrip
import Wmfs.Ring.Truncation
import Wmfs.Ring.Canonical
import Wmfs.Session.RecordReads
import Wmfs.Worker.Loop
import Wmfs.Worker.Answers
import Wmfs.Control.Codec
import Wmfs.Control.RoundTrip
import Wmfs.Control.Loads
import Wmfs.Control.Agreement
import Wmfs.Invocation.Metadata
import Wmfs.Invocation.Binding
import Wmfs.Invocation.Outputs
import Wmfs.Invocation.Command
import Wmfs.Ring.Endpoints
import Wmfs.Worker.Caches
import Wmfs.Worker.Failures
import Wmfs.Compiler.Model
import Wmfs.Compiler.Parser
import Wmfs.Compiler.Configuration
import Wmfs.Compiler.Interface
import Wmfs.Compiler.Documents
import Wmfs.Manifest.Metadata
import Wmfs.Manifest.Decode
import Wmfs.Manifest.Translation
import Wmfs.Compiler.Accepted
import Wmfs.Manifest.Fingerprints
import Wmfs.Manifest.Acceptance
import Wmfs.Dtypes.Acceptance
import Wmfs.Manifest.Declarations
import Wmfs.Dtypes.Dispatch
import Wmfs.Log.Native
import Wmfs.Log.Views
import Wmfs.Lib.Utf8Prefix
import Wmfs.Log.Codec
import Wmfs.Log.Encoding
import Wmfs.Log.Parity
import Wmfs.Log.RoundTrip
import Wmfs.Log.Loads
import Wmfs.Log.Shape
import Wmfs.Log.Agreement
import Wmfs.Lib.Words
import Wmfs.Log.Wire
import Wmfs.Log.Writer
import Wmfs.Log.Delivery
import Wmfs.Lib.Utf8Scalars
import Wmfs.Lib.Sha256
import Wmfs.Worker.Sha256
import Wmfs.Log.Validators
import Wmfs.Log.Prefixes
import Wmfs.Lib.KeyedPool
import Wmfs.Isolated.Model
import Wmfs.Isolated.Pool
import Wmfs.Isolated.Lifecycle
import Wmfs.Isolated.Recovery
import Wmfs.Lib.Slots
import Wmfs.Invocation.Completion
import Wmfs.Lib.Settles
import Wmfs.Invocation.Evaluation
import Wmfs.Lib.Strided
import Wmfs.Views.Validation
import Wmfs.Memory.Placement
import Wmfs.Views.Managed
import Wmfs.Lib.MixedRadix
import Wmfs.Lib.Raises
import Wmfs.Views.Fresh
import Wmfs.Lib.Memo
import Wmfs.Lib.Checked
import Wmfs.Views.Mapped
import Wmfs.Views.Native
import Wmfs.Views.Agreement
import Wmfs.Session.Transfer
import Wmfs.Session.Pairing
import Wmfs.Ring.Wrap
import Wmfs.Ring.Blocked
import Wmfs.Log.Queue
import Wmfs.Log.Logger
import Wmfs.Log.Accounting
import Wmfs.Lib.TopK
import Wmfs.Log.Eviction
import Wmfs.Runtime.Registry
import Wmfs.Runtime.Aliases
import Wmfs.Runtime.Bundled
import Wmfs.Autograd.Routing
import Wmfs.Invocation.CallStyles
import Wmfs.Invocation.Enumerations
import Wmfs.Compiler.Readers
import Wmfs.Compiler.Overflow
import Wmfs.Compiler.Unreadable
import Wmfs.Compiler.Exceptions
import Wmfs.Configuration.Accepts
import Wmfs.Configuration.Model
import Wmfs.Configuration.Agreement
import Wmfs.Configuration.Canonical
import Wmfs.Lib.Gate
import Wmfs.Runtime.Atomic
import Wmfs.Runtime.Catalog
import Wmfs.Runtime.Frozen
import Wmfs.Runtime.Names
import Wmfs.Worker.Startup
import Wmfs.Manifest.Identity
