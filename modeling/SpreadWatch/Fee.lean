import SpreadWatch.Log
import SpreadWatch.Value.Access
import SpreadWatch.Value.Number
import SpreadWatch.WaterMark

/-!
Fees per exchange and instrument. A fee is looked up in the cache first; what is not there is asked
of a fetcher or taken from the configured fees, and cached. A fetcher may answer differently from
call to call: it sees all earlier requests.
-/

namespace SpreadWatch

def isFraction (fee : Decimal) : Bool :=
  fee.isFinite && Decimal.compare? fee Decimal.zero != some .lt &&
    Decimal.compare? fee Decimal.one == some .lt

/-- A number in [0, 1) as a configured fee: a text, an integer, a double or a decimal. -/
def feeFraction? (value : Value) : Except Failure (Option Decimal) :=
  match value with
  | .int _ | .float _ | .text _ | .decimal _ =>
      value.written.map fun text => (Decimal.ofText text).toOption.filter isFraction
  | _ => .ok none

inductive FeeLookup where
  | hit (fee : Option Decimal)
  | miss
deriving DecidableEq, Repr

def FeeLookup.status : FeeLookup → String
  | .hit _ => "cached"
  | .miss => "miss"

def FeeLookup.isHit : FeeLookup → Bool
  | .hit _ => true
  | .miss => false

def FeeLookup.fee? : FeeLookup → Option Decimal
  | .hit fee => fee
  | .miss => none

structure FeeRequest where
  exchange : String
  instrument : String
  isBuy : Bool
deriving DecidableEq, Repr

/-- Answers a request, given the earlier ones, the latest first. Null means that there is no fee. -/
abbrev Fetcher := List FeeRequest → FeeRequest → Except Failure Value

abbrev FeeCache := List ((String × String) × Decimal)

namespace FeeCache

def get? (cache : FeeCache) (exchange instrument : String) : Option Decimal :=
  List.lookup (exchange, instrument) cache

def set : FeeCache → String → String → Decimal → FeeCache
  | [], exchange, instrument, fee => [((exchange, instrument), fee)]
  | (key, old) :: rest, exchange, instrument, fee =>
      if key = (exchange, instrument) then (key, fee) :: rest
      else (key, old) :: set rest exchange instrument fee

end FeeCache

structure FeeParams where
  defaultFee : Value := .text "0.0020"
  overrides : Value := .dict []
deriving Repr, Inhabited

structure FeeSource where
  params : FeeParams := {}
  fetcher : Option Fetcher := none
  cache : FeeCache := []
  requests : List FeeRequest := []

namespace FeeSource

def lookup (source : FeeSource) (exchange instrument : String) : FeeLookup :=
  match source.cache.get? exchange instrument with
  | some fee => .hit (some fee)
  | none => .miss

def store (exchange instrument : String) (fee : Value) : Action FeeSource Unit := do
  let fee ← fee.toDecimalByText
  modify fun source => { source with cache := source.cache.set exchange instrument fee }

def clear (source : FeeSource) : FeeSource := { source with cache := [] }

def FeeParams.feeOf (params : FeeParams) (exchange : String) : Except Failure Value :=
  params.overrides.memberOr exchange params.defaultFee

def ask (request : FeeRequest) : Action FeeSource Value := do
  let source ← get
  match source.fetcher with
  | none => FeeParams.feeOf source.params request.exchange
  | some fetch => do
      set { source with requests := request :: source.requests }
      fetch source.requests request

def fetch (request : FeeRequest) : Action FeeSource (Option Decimal) := do
  match ← ask request with
  | .null => return none
  | answer =>
      let fee ← answer.toDecimalByText
      modify fun source =>
        { source with cache := source.cache.set request.exchange request.instrument fee }
      return some fee

end FeeSource

end SpreadWatch
