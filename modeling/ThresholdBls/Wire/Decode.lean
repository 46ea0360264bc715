import ThresholdBls.IndexMap
import ThresholdBls.Error
import ThresholdBls.Json.Document
import ThresholdBls.Text.Quoted

/-!
# Decoding documents

A decoder walks through a document in the order of its text, so that the first problem it meets
decides.  Records may come as objects or as lists of their fields; a value's own check runs when
the value has been read whole.
-/

namespace ThresholdBls.Wire

open Json (Fault Number Key Document)

inductive Origin
  | text
  | value
deriving DecidableEq, Repr

inductive Found
  | null
  | bool (b : Bool)
  | number (n : Number)
  | string (s : String)
  | list
  | object
deriving DecidableEq, Repr

inductive Problem
  | invalidType (found : Found) (wanted : String)
  | outOfRange (n : Number)
  | tooShort (length : Nat) (wanted : String)
  | tooLong (length : Nat)
  | missingField (name : String)
  | duplicateField (name : String)
  | unknownField (name : String) (known : List String)
  | scheme (error : Error)
  | group (error : GroupError)
deriving DecidableEq, Repr

inductive DecodeError
  | fault (fault : Fault)
  | data (problem : Problem)
deriving DecidableEq, Repr

def Found.message : Found → String
  | .null => "null"
  | .bool b => "boolean `" ++ toString b ++ "`"
  | .number (.float x) => "floating point `" ++ x.render ++ "`"
  | .number n => "integer `" ++ n.render ++ "`"
  | .string s => "string " ++ Quoted.encode s
  | .list => "sequence"
  | .object => "map"

def accented (name : String) : String :=
  "`" ++ name ++ "`"

def Problem.message : Problem → String
  | .invalidType found wanted => "invalid type: " ++ found.message ++ ", expected " ++ wanted
  | .outOfRange n => "invalid value: integer `" ++ n.render ++ "`, expected u16"
  | .tooShort length wanted => "invalid length " ++ toString length ++ ", expected " ++ wanted
  | .tooLong length =>
      "invalid length " ++ toString length ++ ", expected fewer elements in array"
  | .missingField name => "missing field " ++ accented name
  | .duplicateField name => "duplicate field " ++ accented name
  | .unknownField name known =>
      "unknown field " ++ accented name ++ ", expected one of "
        ++ String.intercalate ", " (known.map accented)
  | .scheme error => error.message
  | .group error => error.message

abbrev Decoded (α : Type) : Type := Except DecodeError α

def refuse {α : Type} (wanted : String) : Document → Decoded α
  | .unreadable fault _ => .error (.fault fault)
  | .null => .error (.data (.invalidType .null wanted))
  | .bool b => .error (.data (.invalidType (.bool b) wanted))
  | .number n => .error (.data (.invalidType (.number n) wanted))
  | .string s => .error (.data (.invalidType (.string s) wanted))
  | .list _ _ => .error (.data (.invalidType .list wanted))
  | .object _ _ => .error (.data (.invalidType .object wanted))

def checkFault : Option Fault → Decoded Unit
  | some fault => .error (.fault fault)
  | none => .ok ()

def index16OfNumber (n : Number) : Decoded UInt16 :=
  match n with
  | .natural k => if k < 65536 then .ok (UInt16.ofNat k) else .error (.data (.outOfRange n))
  | .negative _ => .error (.data (.outOfRange n))
  | .float _ => refuse "u16" (.number n)

def index16 : Document → Decoded UInt16
  | .number n => index16OfNumber n
  | other => refuse "u16" other

def string : Document → Decoded String
  | .string s => .ok s
  | other => refuse "a string" other

def list {α : Type} (item : Document → Decoded α) : Document → Decoded (List α)
  | .list items close => do
      let values ← items.mapM item
      checkFault close
      return values
  | other => refuse "a sequence" other

/-- Reads a key as a number, which stands without quotation marks of its own and has to fill the
key. -/
def numericKey (origin : Origin) (key : Key) : Decoded UInt16 := do
  let atEnd := if origin = .text ∧ key.closed then Fault.malformed else Fault.truncated
  let starts := key.raw.head?.any fun c => c = '-' || c.isDigit
  if !starts then throw (.fault .malformed)
  let (numeral, rest) ← (Number.Numeral.read atEnd key.raw).mapError .fault
  let some n := numeral.value? | throw (.fault .malformed)
  let index ← index16OfNumber n
  if !key.closed || !rest.isEmpty then throw (.fault .malformed)
  return index

def indexMap {α : Type} (origin : Origin) (value : Document → Decoded α) :
    Document → Decoded (IndexMap α)
  | .object members close => do
      let entries ← members.mapM fun (key, document) => do
        let index ← numericKey origin key
        return (index, ← value document)
      checkFault close
      return .ofList entries
  | other => refuse "a map" other

/-! ## Records -/

structure Field (Draft : Type) where
  name : String
  isPresent : Draft → Bool
  read : Document → Draft → Decoded Draft

/-- How a record is read: into an empty draft, field by field, and finished in the end. -/
structure Record (Draft α : Type) where
  name : String
  fields : List (Field Draft)
  /-- Whether fields of other names are refused; otherwise they are skipped. -/
  strict : Bool
  empty : Draft
  finish : Draft → Decoded α

def required {α : Type} (name : String) : Option α → Decoded α
  | some a => .ok a
  | none => .error (.data (.missingField name))

namespace Record

variable {Draft α : Type} (record : Record Draft α)

def wanted : String :=
  "struct " ++ record.name

def readItems (close : Option Fault) :
    (read : Nat) → List (Field Draft) → List Document → Draft → Decoded (Draft × List Document)
  | _, [], items, draft => .ok (draft, items)
  | read, _ :: _, [], _ => do
      checkFault close
      let count := toString record.fields.length
      throw (.data (.tooShort read (record.wanted ++ " with " ++ count ++ " elements")))
  | read, field :: fields, item :: items, draft => do
      readItems close (read + 1) fields items (← field.read item draft)

def readMember (draft : Draft) (member : Key × Document) : Decoded Draft := do
  let name ← member.1.content.mapError .fault
  match record.fields.find? (·.name == name) with
  | some field =>
      if field.isPresent draft then throw (.data (.duplicateField name))
      field.read member.2 draft
  | none =>
      if record.strict then
        throw (.data (.unknownField name (record.fields.map (·.name))))
      checkFault member.2.skipFault
      return draft

def decode (origin : Origin) : Document → Decoded α
  | .list items close => do
      let (draft, left) ← readItems record close 0 record.fields items record.empty
      if !left.isEmpty then
        throw (match origin with
          | .text => .fault .malformed
          | .value => .data (.tooLong items.length))
      checkFault close
      record.finish draft
  | .object members close => do
      let draft ← members.foldlM (readMember record) record.empty
      checkFault close
      record.finish draft
  | other => refuse record.wanted other

end Record

end ThresholdBls.Wire
