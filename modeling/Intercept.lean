import Intercept.Bytes.Range
import Intercept.Header.Region
import Intercept.PoolBench
import Intercept.Proofs.Acceptance
import Intercept.Proofs.AlignedWords
import Intercept.Proofs.Balance
import Intercept.Proofs.ByteVector
import Intercept.Proofs.Careful
import Intercept.Proofs.Closing
import Intercept.Proofs.Header.Copying
import Intercept.Proofs.Header.FragmentOffset
import Intercept.Proofs.Header.PayloadReplacement
import Intercept.Proofs.LazyParsing
import Intercept.Proofs.Ledger
import Intercept.Proofs.Packet.AllOrNothing
import Intercept.Proofs.Packet.Setting
import Intercept.Proofs.Recycling
import Intercept.Proofs.Safety
import Intercept.Proofs.Sending
import Intercept.Proofs.Traffic
import Intercept.Scenario
