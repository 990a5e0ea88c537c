/-
Command lines as a POSIX shell reads and writes them.

`join` writes a list of words as one line, quoting a word only where it has to, and
`split` reads a line back into words.  The reader is a walk over the characters with a
cursor that says where it stands: between two words, inside a word, or inside one of
the two kinds of quotes.
-/
namespace CompileCommands.Shell

/-! ### Writing -/

/-- Characters that mean themselves wherever they stand in a word. -/
def isPlain (c : Char) : Bool :=
  c.isAlphanum || ['-', '_', '.', '/', '=', '+', ',', ':', '@', '%'].contains c

/-- What stands for a character between single quotes.  A single quote cannot stand there:
the quotes are closed, it is written behind a backslash, and they are opened again. -/
def quoteChar (c : Char) : List Char :=
  if c = '\'' then ['\'', '\\', '\'', '\''] else [c]

/-- A word is written as it is when it is not empty and all its characters are plain, and
between single quotes otherwise. -/
def quote (word : List Char) : List Char :=
  if word ≠ [] ∧ word.all isPlain then word
  else '\'' :: word.flatMap quoteChar ++ ['\'']

/-- Words as one command line, with a blank between two of them. -/
def joinChars : List (List Char) → List Char
  | [] => []
  | [word] => quote word
  | word :: rest => quote word ++ ' ' :: joinChars rest

/-- Words as one command line that `split` reads back the same way. -/
def join (words : List String) : String :=
  String.ofList (joinChars (words.map String.toList))

/-! ### Reading -/

/-- Why a line is no list of words. -/
inductive SplitError
  | trailingBackslash
  | unterminatedSingleQuote
  | unterminatedDoubleQuote
  deriving DecidableEq, Repr

def SplitError.message : SplitError → String
  | trailingBackslash => "trailing backslash"
  | unterminatedSingleQuote => "unterminated single quote"
  | unterminatedDoubleQuote => "unterminated double quote"

/-- The characters that separate words. -/
def isSeparator (c : Char) : Bool := c = ' ' || c = '\t' || c = '\n'

/-- The characters that a backslash protects inside double quotes. -/
def isProtected (c : Char) : Bool := c = '"' || c = '\\' || c = '$' || c = '`'

/-- Where the reader stands, with the characters of the open word, the last one first. -/
inductive Cursor
  | between
  | word (letters : List Char)
  | single (letters : List Char)
  | double (letters : List Char)
  deriving DecidableEq, Repr

/-- The characters of the open word; between two words there are none yet. -/
def Cursor.letters : Cursor → List Char
  | between => []
  | word letters | single letters | double letters => letters

/-- The words that the end of the line completes. -/
def Cursor.finish : Cursor → Except SplitError (List (List Char))
  | between => .ok []
  | word letters => .ok [letters.reverse]
  | single _ => .error .unterminatedSingleQuote
  | double _ => .error .unterminatedDoubleQuote

/-- The words that a separator completes, outside quotes. -/
def Cursor.completed : Cursor → List (List Char)
  | word letters => [letters.reverse]
  | _ => []

/-- The words of the rest of a line, read from a cursor. -/
def wordsFrom (cursor : Cursor) : List Char → Except SplitError (List (List Char))
  | [] => cursor.finish
  | c :: rest =>
    match cursor with
    | .single letters =>
        if c = '\'' then wordsFrom (.word letters) rest
        else wordsFrom (.single (c :: letters)) rest
    | .double letters =>
        if c = '"' then wordsFrom (.word letters) rest
        else if c = '\\' then
          match rest with
          | [] => .error .unterminatedDoubleQuote
          | d :: rest =>
              if d = '\n' then wordsFrom (.double letters) rest
              else if isProtected d then wordsFrom (.double (d :: letters)) rest
              else wordsFrom (.double (d :: '\\' :: letters)) rest
        else wordsFrom (.double (c :: letters)) rest
    | outside =>
        if isSeparator c then (outside.completed ++ ·) <$> wordsFrom .between rest
        else if c = '\'' then wordsFrom (.single outside.letters) rest
        else if c = '"' then wordsFrom (.double outside.letters) rest
        else if c = '\\' then
          match rest with
          | [] => .error .trailingBackslash
          | d :: rest =>
              if d = '\n' then wordsFrom (.word outside.letters) rest
              else wordsFrom (.word (d :: outside.letters)) rest
        else wordsFrom (.word (c :: outside.letters)) rest

/-- The words of a command line. -/
def split (line : String) : Except SplitError (List String) :=
  (·.map String.ofList) <$> wordsFrom .between line.toList

end CompileCommands.Shell
