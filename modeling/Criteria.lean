import Criteria.Bindings.Json
import Criteria.Criterion.Bindings
import Criteria.Draft
import Criteria.Literal.Conversion
import Criteria.Proofs.Making
import Criteria.Proofs.Skeleton
import Criteria.Proofs.Quoting
import Criteria.Proofs.Insertion
import Criteria.Proofs.Collection
import Criteria.Proofs.History
import Criteria.Proofs.Reachability
import Criteria.Proofs.Agreement
import Criteria.Proofs.Conflict
import Criteria.Proofs.Construction
import Criteria.Proofs.JsonReader
import Criteria.Proofs.JsonReading
import Criteria.Proofs.JsonRoundTrip
import Criteria.Proofs.Equality
import Criteria.Proofs.Merging
import Criteria.Proofs.Overwriting
import Criteria.Proofs.Inspection
import Criteria.Proofs.Stripping
import Criteria.Proofs.Interchange
import Criteria.Proofs.JsonConversion
import Criteria.Proofs.Scaling
import Criteria.Proofs.Placing
import Criteria.Proofs.FloatRange
import Criteria.Proofs.Numerals
import Criteria.Proofs.Forms
import Criteria.Proofs.PrintEquivalence
import Criteria.Proofs.Atoms
import Criteria.Proofs.ShortDecimals
import Criteria.Proofs.SmallFloats
import Criteria.Proofs.WholeNumbers
import Criteria.Proofs.Packing
import Criteria.Proofs.Rounding
import Criteria.Proofs.NearestDoubles
import Criteria.Proofs.Scientific
import Criteria.Proofs.ShortestDigits
import Criteria.Proofs.FloatReading
import Criteria.Proofs.JsonIntegers
