/-
Why a file gives no value of the wanted type.
-/
import CompileCommands.FileError
import CompileCommands.Json.Number
import CompileCommands.Text.Quoted

namespace CompileCommands.Json

/-- A value as a message names it. -/
inductive Found
  | null
  | bool (value : Bool)
  | number (value : Number)
  | text (value : String)
  | list
  | record
  deriving DecidableEq, Repr

/-- What a place in a file has to hold. -/
inductive Expected
  | bool
  | text
  | path
  /-- A whole number from 0 to `2 ^ 32 - 1`. -/
  | word
  /-- A whole number from `- 2 ^ 31` to `2 ^ 31 - 1`. -/
  | integer
  | list
  | dictionary
  | record (name : String)
  deriving DecidableEq, Repr

/-- A value that JSON allows and its place does not. -/
inductive Mismatch
  | missingField (name : String)
  | duplicateField (name : String)
  | wrongType (found : Found) (expected : Expected)
  | outOfRange (value : Int) (expected : Expected)
  /-- A record that is written as a list lacks fields. -/
  | tooShort (length : Nat) (record : String) (fields : Nat)
  deriving DecidableEq, Repr

inductive Error
  /-- The file cannot be read. -/
  | unreadable (cause : FileError)
  | flaw (flaw : Flaw)
  | mismatch (mismatch : Mismatch)
  deriving DecidableEq, Repr

/-! ### Wording -/

def Found.describe : Found → String
  | null => "null"
  | bool value => "boolean `" ++ toString value ++ "`"
  | number (.natural value) => "integer `" ++ toString value ++ "`"
  | number (.negative value) => "integer `-" ++ toString value ++ "`"
  | number (.double isNegative value) =>
      "floating point `" ++ (if isNegative then "-" else "") ++ Decimal.text value ++ "`"
  | text value => "string " ++ Text.quoted value
  | list => "sequence"
  | record => "map"

def Expected.describe : Expected → String
  | bool => "a boolean"
  | text => "a string"
  | path => "path string"
  | word => "u32"
  | integer => "i32"
  | list => "a sequence"
  | dictionary => "a map"
  | record name => "struct " ++ name

def Mismatch.message : Mismatch → String
  | missingField name => "missing field `" ++ name ++ "`"
  | duplicateField name => "duplicate field `" ++ name ++ "`"
  | wrongType found expected =>
      "invalid type: " ++ found.describe ++ ", expected " ++ expected.describe
  | outOfRange value expected =>
      "invalid value: integer `" ++ toString value ++ "`, expected " ++ expected.describe
  | tooShort length record fields =>
      "invalid length " ++ toString length ++ ", expected " ++ (Expected.record record).describe
        ++ " with " ++ toString fields ++ (if fields = 1 then " element" else " elements")

/-- The message of a flaw is a mere tag. -/
def Error.message : Error → String
  | unreadable cause => cause.message
  | flaw .malformed => "<syntax>"
  | flaw .cutShort => "<eof>"
  | mismatch m => m.message

end CompileCommands.Json
