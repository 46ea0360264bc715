/-!
# Segmented text

Values of several parts are written with a colon between the parts.
-/

namespace ThresholdBls.Segments

/-- The parts between colons; a text without a colon is its own only part. -/
def split (s : String) : List String :=
  (s.toList.splitOn ':').map String.ofList

def splitFirst? (s : String) : Option (String × String) :=
  match s.toList.span (· ≠ ':') with
  | (_, []) => none
  | (front, _ :: back) => some (String.ofList front, String.ofList back)

def join (parts : List String) : String :=
  String.ofList ([':'].intercalate (parts.map String.toList))

end ThresholdBls.Segments
