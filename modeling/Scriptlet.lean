import Scriptlet.Main
import Scriptlet.Proofs.Parsing.Exactness
import Scriptlet.Proofs.Evaluation.Frame
import Scriptlet.Proofs.Evaluation.Independence
import Scriptlet.Proofs.Evaluation.Safety
import Scriptlet.Proofs.Evaluation.Shrinking
import Scriptlet.Proofs.Text.Classes
import Scriptlet.Proofs.Tokens.Spelling
import Scriptlet.Proofs.Parsing.Forms
import Scriptlet.Proofs.Evaluation.Agreement
import Scriptlet.Proofs.Evaluation.Reservation
import Scriptlet.Proofs.Parsing.RoundTrip
import Scriptlet.Proofs.Evaluation.Words
import Scriptlet.Proofs.Tokens.Partition
import Scriptlet.Proofs.Tokens.Respelling
import Scriptlet.Proofs.Data.Datum
import Scriptlet.Proofs.Data.Reading
import Scriptlet.Proofs.Parsing.Failure
import Scriptlet.Proofs.Parsing.Locality
import Scriptlet.Proofs.Parsing.Completion
import Scriptlet.Proofs.Parsing.Offense
import Scriptlet.Proofs.Session.Brackets
import Scriptlet.Proofs.Parsing.Nesting
import Scriptlet.Proofs.Session.Units
import Scriptlet.Proofs.Tokens.Joining
import Scriptlet.Proofs.Session.Succession
import Scriptlet.Proofs.Session.Tokens
import Scriptlet.Proofs.Launch.Files
import Scriptlet.Proofs.Shell.Division
import Scriptlet.Proofs.Evaluation.Emptiness
import Scriptlet.Proofs.Session.Queueing
import Scriptlet.Proofs.Evaluation.Machine
import Scriptlet.Proofs.Evaluation.Taking
import Scriptlet.Proofs.Evaluation.Depth
import Scriptlet.Proofs.Evaluation.Ends
import Scriptlet.Proofs.Session.Handling
import Scriptlet.Proofs.Evaluation.Resolution
import Scriptlet.Proofs.Parsing.Ending
import Scriptlet.Proofs.Parsing.Recording
