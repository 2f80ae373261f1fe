import Abacus.Cursor.Step
import Abacus.Main
import Abacus.Proofs.Arithmetic
import Abacus.Proofs.Blame
import Abacus.Proofs.Checked
import Abacus.Proofs.Closing
import Abacus.Proofs.Correspondence
import Abacus.Proofs.Decimal
import Abacus.Proofs.Derivation
import Abacus.Proofs.Exhausted
import Abacus.Proofs.Input
import Abacus.Proofs.Interchange
import Abacus.Proofs.Isolation
import Abacus.Proofs.Items
import Abacus.Proofs.Layout
import Abacus.Proofs.Literal
import Abacus.Proofs.Locality
import Abacus.Proofs.Lookahead
import Abacus.Proofs.MissingEnd
import Abacus.Proofs.Parentheses
import Abacus.Proofs.Place
import Abacus.Proofs.Progress
import Abacus.Proofs.Reads
import Abacus.Proofs.Record
import Abacus.Proofs.Scan
import Abacus.Proofs.Seam
import Abacus.Proofs.Spacing
import Abacus.Proofs.Spelling
import Abacus.Proofs.Success
import Abacus.Proofs.Wording
