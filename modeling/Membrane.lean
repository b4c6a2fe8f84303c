import Membrane.Session.Running
import Membrane.Text.TypeName
import Membrane.Proofs.Arguments
import Membrane.Proofs.Calling
import Membrane.Proofs.Equality
import Membrane.Proofs.Failure
import Membrane.Proofs.HostReturn
import Membrane.Proofs.Intrinsic
import Membrane.Proofs.Isolation
import Membrane.Proofs.ScriptReturn
import Membrane.Proofs.Strategies
import Membrane.Proofs.Discretion
import Membrane.Proofs.Writing
import Membrane.Proofs.Internal
import Membrane.Proofs.OwnProperties
import Membrane.Proofs.Consultation
import Membrane.Proofs.Listing
import Membrane.Proofs.Distinct
import Membrane.Proofs.Memoization
import Membrane.Proofs.ErrorObject
import Membrane.Proofs.Lifetime
import Membrane.Proofs.Visibility
import Membrane.Proofs.Shape
import Membrane.Proofs.Inheritance
import Membrane.Proofs.Instances
import Membrane.Proofs.Words
import Membrane.Proofs.Sharing
import Membrane.Proofs.Integers
import Membrane.Proofs.Configuration
import Membrane.Proofs.Segments
