import ThresholdBls.Json.Value

/-!
# JSON documents

A document is a JSON text as far as it could be read.  Where reading fails, the document holds the
fault in place of what should have stood there, so that a consumer that walks through the document
meets faults and contents in the order of the text.  Some tokens cannot be read but can be
skipped, such as a number that is too large.
-/

namespace ThresholdBls.Json

structure Key where
  /-- The key as it stands in the text, or all that follows if it does not end. -/
  raw : List Char
  closed : Bool
  content : Except Fault String
  /-- The fault that a consumer meets even if it skips the key. -/
  skipFault : Option Fault

inductive Document
  | null
  | bool (b : Bool)
  | number (n : Number)
  | string (s : String)
  /-- The faults met by a consumer that reads and by one that skips. -/
  | unreadable (onRead : Fault) (onSkip : Option Fault)
  /-- The second part is the fault that stands where the list has to go on or to end. -/
  | list (items : List Document) (close : Option Fault)
  | object (members : List (Key × Document)) (close : Option Fault)

namespace Document

mutual

def skipFault : Document → Option Fault
  | .unreadable _ onSkip => onSkip
  | .list items close => (itemsFault items).or close
  | .object members close => (membersFault members).or close
  | _ => none

def itemsFault : List Document → Option Fault
  | [] => none
  | item :: rest => item.skipFault.or (itemsFault rest)

def membersFault : List (Key × Document) → Option Fault
  | [] => none
  | (key, value) :: rest => (key.skipFault.or value.skipFault).or (membersFault rest)

end

/-! ## Strings -/

def hexDigits : List Char → Except Fault (Nat × List Char)
  | a :: b :: c :: d :: rest =>
      match Hex.digitValue? a, Hex.digitValue? b, Hex.digitValue? c, Hex.digitValue? d with
      | some a, some b, some c, some d => .ok (4096 * a + 256 * b + 16 * c + d, rest)
      | _, _, _, _ => .error .malformed
  | rest => .error (if (String.ofList rest).utf8ByteSize < 4 then .truncated else .malformed)

def simpleEscape : Char → Option Char
  | '"' => some '"'
  | '\\' => some '\\'
  | '/' => some '/'
  | 'b' => some '\x08'
  | 'f' => some '\x0c'
  | 'n' => some '\n'
  | 'r' => some '\r'
  | 't' => some '\t'
  | _ => none

def lowSurrogate : List Char → Except Fault (Nat × List Char)
  | [] => .error .truncated
  | ['\\'] => .error .truncated
  | '\\' :: 'u' :: rest => do
      let (low, rest) ← hexDigits rest
      if 0xDC00 ≤ low ∧ low ≤ 0xDFFF then return (low, rest) else throw .malformed
  | _ => .error .malformed

/-- The character of a numeric escape, which may take a second escape. -/
def unicodeEscape (cs : List Char) : Except Fault (Char × List Char) := do
  let (code, rest) ← hexDigits cs
  if 0xDC00 ≤ code ∧ code ≤ 0xDFFF then throw .malformed
  if 0xD800 ≤ code ∧ code ≤ 0xDBFF then
    let (low, rest) ← lowSurrogate rest
    return (Char.ofNat (0x10000 + 1024 * (code - 0xD800) + (low - 0xDC00)), rest)
  return (Char.ofNat code, rest)

def readString : Nat → List Char → Except Fault (List Char × List Char)
  | 0, _ => .error .truncated
  | _, [] => .error .truncated
  | _ + 1, '"' :: rest => .ok ([], rest)
  | _ + 1, ['\\'] => .error .truncated
  | bound + 1, '\\' :: 'u' :: rest => do
      let (c, rest) ← unicodeEscape rest
      let (cs, rest) ← readString bound rest
      return (c :: cs, rest)
  | bound + 1, '\\' :: letter :: rest => do
      let some c := simpleEscape letter | throw .malformed
      let (cs, rest) ← readString bound rest
      return (c :: cs, rest)
  | bound + 1, c :: rest => do
      if c.toNat < 32 then throw .malformed
      let (cs, rest) ← readString bound rest
      return (c :: cs, rest)

/-- Skips a string after its opening quotation mark, and gives it as it stands.  Halves of
surrogate pairs are let pass. -/
def skipString : Nat → List Char → Except Fault (List Char × List Char)
  | 0, _ => .error .truncated
  | _, [] => .error .truncated
  | _ + 1, '"' :: rest => .ok ([], rest)
  | _ + 1, ['\\'] => .error .truncated
  | bound + 1, '\\' :: 'u' :: rest => do
      let _ ← hexDigits rest
      let (raw, rest) ← skipString bound rest
      return ('\\' :: 'u' :: raw, rest)
  | bound + 1, '\\' :: letter :: rest => do
      if (simpleEscape letter).isNone then throw .malformed
      let (raw, rest) ← skipString bound rest
      return ('\\' :: letter :: raw, rest)
  | bound + 1, c :: rest => do
      if c.toNat < 32 then throw .malformed
      let (raw, rest) ← skipString bound rest
      return (c :: raw, rest)

/-! ## Tokens -/

def isBlank (c : Char) : Bool :=
  c = ' ' || c = '\n' || c = '\t' || c = '\r'

def skipBlanks (cs : List Char) : List Char :=
  cs.dropWhile isBlank

def broken (fault : Fault) : Document × Option (List Char) :=
  (.unreadable fault (some fault), none)

def keyword (document : Document) : List Char → List Char → Document × Option (List Char)
  | [], rest => (document, some rest)
  | _ :: _, [] => broken .truncated
  | c :: word, d :: rest => if c = d then keyword document word rest else broken .malformed

def stringToken (bound : Nat) (cs : List Char) : Document × Option (List Char) :=
  match readString bound cs with
  | .ok (s, rest) => (.string (String.ofList s), some rest)
  | .error fault =>
      match skipString bound cs with
      | .ok (_, rest) => (.unreadable fault none, some rest)
      | .error onSkip => (.unreadable fault (some onSkip), none)

def numberToken (cs : List Char) : Document × Option (List Char) :=
  match Number.Numeral.read .truncated cs with
  | .error fault => (.unreadable fault (some .malformed), none)
  | .ok (numeral, rest) =>
      match numeral.value? with
      | some n => (.number n, some rest)
      | none => (.unreadable .malformed none, some rest)

def keyToken (bound : Nat) (cs : List Char) : Key × Option (List Char) :=
  let content := (readString bound cs).map fun (s, _) => String.ofList s
  match skipString bound cs with
  | .ok (raw, rest) => (⟨raw, true, content, none⟩, some rest)
  | .error fault => (⟨cs, false, content, some fault⟩, none)

/-! ## Documents -/

mutual

/-- Reads one document; the rest is absent if the text cannot be skipped to its end. -/
def read : Nat → List Char → Document × Option (List Char)
  | 0, _ => broken .truncated
  | bound + 1, cs =>
      match skipBlanks cs with
      | [] => broken .truncated
      | 'n' :: rest => keyword .null ['u', 'l', 'l'] rest
      | 't' :: rest => keyword (.bool true) ['r', 'u', 'e'] rest
      | 'f' :: rest => keyword (.bool false) ['a', 'l', 's', 'e'] rest
      | '"' :: rest => stringToken bound rest
      | '[' :: rest =>
          let (items, close, rest) := readItems bound true rest
          (.list items close, rest)
      | '\x7b' :: rest =>
          let (members, close, rest) := readMembers bound true rest
          (.object members close, rest)
      | c :: rest => if c = '-' ∨ c.isDigit then numberToken (c :: rest) else broken .malformed

def readItems : Nat → Bool → List Char → List Document × Option Fault × Option (List Char)
  | 0, _, _ => ([], some .truncated, none)
  | bound + 1, isFirst, cs =>
      match skipBlanks cs with
      | [] => ([], some .truncated, none)
      | ']' :: rest => ([], none, some rest)
      | c :: rest =>
          if !isFirst && c ≠ ',' then ([], some .malformed, none)
          else
            match read bound (if isFirst then c :: rest else rest) with
            | (item, none) => ([item], none, none)
            | (item, some rest) =>
                let (items, close, rest) := readItems bound false rest
                (item :: items, close, rest)

/-- Reads the members of an object up to its end.  What stands in place of a key is no
member. -/
def readMembers :
    Nat → Bool → List Char → List (Key × Document) × Option Fault × Option (List Char)
  | 0, _, _ => ([], some .truncated, none)
  | bound + 1, isFirst, cs =>
      match skipBlanks cs with
      | [] => ([], some .truncated, none)
      | '\x7d' :: rest => ([], none, some rest)
      | c :: rest =>
          if !isFirst && c ≠ ',' then ([], some .malformed, none)
          else
            match skipBlanks (if isFirst then c :: rest else rest) with
            | [] => ([], some .truncated, none)
            | '"' :: rest =>
                match keyToken bound rest with
                | (key, none) => ([(key, .unreadable .malformed (some .malformed))], none, none)
                | (key, some rest) =>
                    match skipBlanks rest with
                    | [] => ([(key, .unreadable .truncated (some .truncated))], none, none)
                    | ':' :: rest =>
                        match read bound rest with
                        | (value, none) => ([(key, value)], none, none)
                        | (value, some rest) =>
                            let (members, close, rest) := readMembers bound false rest
                            ((key, value) :: members, close, rest)
                    | _ => ([(key, .unreadable .malformed (some .malformed))], none, none)
            | _ => ([], some .malformed, none)

end

def ofText (text : String) : Document × Option (List Char) :=
  read (2 * text.toList.length + 2) text.toList

/-! ## Values -/

mutual

def ofValue : Json → Document
  | .null => .null
  | .bool b => .bool b
  | .number n => .number n
  | .string s => .string s
  | .list items => .list (ofItems items) none
  | .object members => .object (ofMembers members) none

def ofItems : List Json → List Document
  | [] => []
  | item :: rest => ofValue item :: ofItems rest

def ofMembers : List (String × Json) → List (Key × Document)
  | [] => []
  | (key, value) :: rest => (⟨key.toList, true, .ok key, none⟩, ofValue value) :: ofMembers rest

end

mutual

def toValue : Document → Except Fault Json
  | .null => .ok .null
  | .bool b => .ok (.bool b)
  | .number n => .ok (.number n)
  | .string s => .ok (.string s)
  | .unreadable fault _ => .error fault
  | .list items close => do
      let values ← toItems items
      if let some fault := close then throw fault
      return .list values
  | .object members close => do
      let values ← toMembers [] members
      if let some fault := close then throw fault
      return .object values

def toItems : List Document → Except Fault (List Json)
  | [] => .ok []
  | item :: rest => do
      let value ← item.toValue
      let values ← toItems rest
      return value :: values

/-- Files the members by key; the last of equal keys counts. -/
def toMembers (filed : List (String × Json)) :
    List (Key × Document) → Except Fault (List (String × Json))
  | [] => .ok filed
  | (key, document) :: rest => do
      let name ← key.content
      let value ← document.toValue
      toMembers (insertMember name value filed) rest

end

end Document

def parse (text : String) : Except Fault Json := do
  let (document, rest) := Document.ofText text
  let value ← document.toValue
  match rest.map Document.skipBlanks with
  | some [] => return value
  | _ => throw .malformed

end ThresholdBls.Json
