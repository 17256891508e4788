import Policyd.DecideQuery

namespace Policyd.HttpFront

/-!
# The numbers of a decide query

Numbers are read by one loop over at most twenty digits whose accumulator
wraps, and a bound is then checked on what is left.  `ReadsExactly` says what a
reader of the interface expects: each number is a numeral within the range of
its field, and the field holds its value.  It holds for numerals that do not
wrap, and for sequence numbers within their range.
-/

/-- The value of a text as a decimal numeral. -/
def decimalValue (text : Str) : Option Nat :=
  if text ≠ [] ∧ text.all Char.isDigit = true then
    some (numeralValue text)
  else
    none

variable {number : UInt64}

namespace ParamKey

/-- The numbers in the range of a parameter's field. -/
def admits (dnnNames : List Str) (number : Nat) : ParamKey → Prop
  | .qos5qi => 1 ≤ number ∧ number ≤ 255
  | .tac => number ≤ 65535
  | .minute => number ≤ 1439
  | .usage => number < 2 ^ 64
  | .seq => number < 2 ^ 32
  | .dnn => number < dnnNames.length
  | .rat => number < 3
  | .imsi | .imei | .plmn | .tethering | .emergency => False

/-- The number a request holds for a parameter. -/
def field (request : PolicyRequest) : ParamKey → Nat
  | .qos5qi => request.requested5qi.toNat
  | .tac => request.tac.toNat
  | .minute => request.localMinute.toNat
  | .usage => request.bytesUsedPeriod.toNat
  | .seq => request.seq.toNat
  | .dnn => request.dnnId.toNat
  | .rat => request.ratType.toNat
  | .imsi | .imei | .plmn | .tethering | .emergency => 0

end ParamKey

section OneNumber

variable {dnnNames : List Str}
variable {state next : DecideState}
variable {value : Str}

/-- A parameter that is read as a number in range. -/
def ParamKey.Reads
    (dnnNames : List Str) (value : Str) (request : PolicyRequest)
    (param : ParamKey) : Prop :=
  decimalValue value = some (param.field request) ∧
    param.admits dnnNames (param.field request)

variable {number : UInt64}

end OneNumber

/-- A query with a small usage and a 5QI. -/
def plainQuery : Str :=
  "imsi=310260100000001&qos_5qi=7&usage=5&seq=3".toList

end Policyd.HttpFront
