import ThresholdBls.Text.Hex
import ThresholdBls.Text.Unprinted

/-!
# Quoted text in messages

A text that a message quotes stands in quotation marks.  Characters that would not be seen are
written by their codes.
-/

namespace ThresholdBls.Quoted

def escape (c : Char) : List Char :=
  if c = '"' then ['\\', '"']
  else if c = '\\' then ['\\', '\\']
  else if c = '\n' then ['\\', 'n']
  else if c = '\r' then ['\\', 'r']
  else if c = '\t' then ['\\', 't']
  else if c.toNat = 0 then ['\\', '0']
  else if Unprinted.contains c then
    ['\\', 'u', '\x7b'] ++ (Hex.ofNat c.toNat).toList ++ ['\x7d']
  else [c]

def encode (s : String) : String :=
  String.ofList ('"' :: s.toList.flatMap escape ++ ['"'])

end ThresholdBls.Quoted
