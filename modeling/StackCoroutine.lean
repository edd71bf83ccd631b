import StackCoroutine.CommandLine.FileTree
import StackCoroutine.Main
import StackCoroutine.Proofs.SavedOrder
import StackCoroutine.Proofs.Machine.Verified
import StackCoroutine.Proofs.Assignability
import StackCoroutine.Proofs.Frame.Covers
import StackCoroutine.Proofs.Frame.Flow
import StackCoroutine.Proofs.Frame.Ending
import StackCoroutine.Proofs.Instrument.Body
import StackCoroutine.Proofs.Saving.Resumption
import StackCoroutine.Proofs.Saving.RoundTrip
import StackCoroutine.Proofs.Saving.Tracking
import StackCoroutine.Proofs.Saving.Occupancy
import StackCoroutine.Proofs.Class.Damage
import StackCoroutine.Proofs.Class.Form
import StackCoroutine.Proofs.Code.Listing
import StackCoroutine.Proofs.Reference.Runs
import StackCoroutine.Proofs.Machine.Heights
import StackCoroutine.Proofs.Object.Runs
import StackCoroutine.Proofs.Point.Compatible
import StackCoroutine.Proofs.Resting
import StackCoroutine.Proofs.Frame.FixedPoint
import StackCoroutine.Proofs.Instrument.Repeated
import StackCoroutine.Proofs.Machine.FailedLoads
import StackCoroutine.Proofs.Instrument.Coverage
import StackCoroutine.Proofs.CommonSuper
import StackCoroutine.Proofs.Zipper
import StackCoroutine.Proofs.Machine.Arguments
