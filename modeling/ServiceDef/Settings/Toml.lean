/-!
# TOML tables

A reader for the part of TOML that settings are written in: tables with headers, dotted keys
and inline tables, arrays, the four kinds of strings, and integers. Other values (numbers with
a fraction, truth values, dates, arrays of tables) are refused, since no setting takes one.

The readers take a bound on the number of steps, which `parse` derives from the length of the
text. Each returns what it has read and the text behind it.
-/

namespace ServiceDef.Toml

/-- How a table came to be, which decides whether it can be added to. -/
inductive TableKind where
  /-- Named by a header of its own. -/
  | header
  /-- On the way to a table that is named by a header. -/
  | passage
  /-- On the way to a dotted key. -/
  | dotted
  /-- Written as a value. -/
  | inline
deriving DecidableEq, Repr

/-- A value of a table. -/
inductive Value where
  | string (contents : String)
  | integer (value : Int)
  | array (items : List Value)
  | table (kind : TableKind) (entries : List (String × Value))
deriving Repr

/-- The entries of a table, in written order. -/
abbrev Table := List (String × Value)

/-- The value of a key. -/
def lookup? (table : Table) (key : String) : Option Value :=
  (table.find? fun entry => entry.1 = key).map (·.2)

/-- The table with another value for a key. -/
def replace (table : Table) (key : String) (value : Value) : Table :=
  table.map fun entry => if entry.1 = key then (key, value) else entry

/-- The table with one more value below a dotted key. A key cannot be given twice, and only
tables that come from dotted keys can be added to. -/
def insert (key : String) (value : Value) : List String → Table → Option Table
  | [], table => if (lookup? table key).isSome then none else some (table ++ [(key, value)])
  | step :: steps, table =>
    match lookup? table step with
    | none => (insert key value steps []).map fun inner =>
        table ++ [(step, .table .dotted inner)]
    | some (.table .dotted entries) => (insert key value steps entries).map fun inner =>
        replace table step (.table .dotted inner)
    | some _ => none

/-- The table after a header. A table can be named by one header only. -/
def openHeader : List String → Table → Option Table
  | [], _ => none
  | [step], table =>
    match lookup? table step with
    | none => some (table ++ [(step, .table .header [])])
    | some (.table .passage entries) => some (replace table step (.table .header entries))
    | some _ => none
  | step :: steps, table =>
    match lookup? table step with
    | none => (openHeader steps []).map fun inner =>
        table ++ [(step, .table .passage inner)]
    | some (.table .inline _) => none
    | some (.table kind entries) => (openHeader steps entries).map fun inner =>
        replace table step (.table kind inner)
    | some _ => none

/-- The table with one more value in the table that a header has opened. -/
def insertBelow (path : List String) (key : String) (value : Value) :
    List String → Table → Option Table
  | [], table => insert key value path table
  | step :: steps, table =>
    match lookup? table step with
    | some (.table kind entries) => (insertBelow path key value steps entries).map fun inner =>
        replace table step (.table kind inner)
    | _ => none

/-- The text behind blanks. -/
def skipBlanks (cs : List Char) : List Char :=
  cs.dropWhile fun c => c = ' ' || c = '\t'

/-- The text behind a line break. -/
def skipNewline? : List Char → Option (List Char)
  | '\n' :: rest => some rest
  | '\r' :: '\n' :: rest => some rest
  | _ => none

/-- Whether a character may stand in a comment or in a string on one line. -/
def isPlain (c : Char) : Bool :=
  c = '\t' || (0x20 ≤ c.toNat && c.toNat ≠ 0x7f)

/-- The text behind a comment, if there is one. -/
def skipComment? (cs : List Char) : Option (List Char) :=
  if cs.head? = some '#' then
    if (cs.takeWhile fun c => c ≠ '\n' && c ≠ '\r').all isPlain then
      some (cs.dropWhile fun c => c ≠ '\n' && c ≠ '\r')
    else none
  else some cs

/-- The text behind the end of a line, which may hold a comment. -/
def skipLineEnd? (cs : List Char) : Option (List Char) := do
  match ← skipComment? (skipBlanks cs) with
  | [] => some []
  | rest => skipNewline? rest

/-- The text behind blanks, comments and line breaks. -/
def skipSpace? : Nat → List Char → Option (List Char)
  | 0, _ => none
  | bound + 1, cs => do
    let rest ← skipComment? (skipBlanks cs)
    match skipNewline? rest with
    | some rest => skipSpace? bound rest
    | none => some rest

/-- The value of a digit in bases up to sixteen. -/
def digit? (c : Char) : Option Nat :=
  if '0' ≤ c ∧ c ≤ '9' then some (c.toNat - '0'.toNat)
  else if 'a' ≤ c ∧ c ≤ 'f' then some (c.toNat - 'a'.toNat + 10)
  else if 'A' ≤ c ∧ c ≤ 'F' then some (c.toNat - 'A'.toNat + 10)
  else none

/-- The number with the given digits, each of them less than the base. -/
def number? (base : Nat) (digits : List Char) : Option Nat :=
  digits.foldlM (fun value c => do
    let d ← digit? c
    if d < base then some (value * base + d) else none) 0

/-- The character with the code point that the given number of digits name, and the text behind
them. -/
def codePoint? (count : Nat) (cs : List Char) : Option (Char × List Char) := do
  let digits := cs.take count
  if digits.length < count then none
  else
    let code ← number? 16 digits
    if code.isValidChar then some (Char.ofNat code, cs.drop count) else none

/-- The character that is named by the text behind a backslash, and the text behind it. -/
def escape? : List Char → Option (Char × List Char)
  | 'b' :: rest => some ('\x08', rest)
  | 't' :: rest => some ('\t', rest)
  | 'n' :: rest => some ('\n', rest)
  | 'f' :: rest => some ('\x0c', rest)
  | 'r' :: rest => some ('\r', rest)
  | '"' :: rest => some ('"', rest)
  | '\\' :: rest => some ('\\', rest)
  | 'u' :: rest => codePoint? 4 rest
  | 'U' :: rest => codePoint? 8 rest
  | _ => none

/-- A run of characters at the front of a string. -/
def push (c : Char) (read : List Char × List Char) : List Char × List Char :=
  (c :: read.1, read.2)

/-- The contents of a string on one line behind its opening `mark`, and the text behind the
closing one. Only double quotes allow escapes. -/
def readLine? (mark : Char) : Nat → List Char → Option (List Char × List Char)
  | 0, _ => none
  | _, [] => none
  | bound + 1, c :: rest =>
    if c = mark then some ([], rest)
    else if c = '\\' && mark = '"' then do
      let (named, rest) ← escape? rest
      (readLine? mark bound rest).map (push named)
    else if isPlain c then (readLine? mark bound rest).map (push c)
    else none

/-- The text behind white space and line breaks. -/
def skipWhite (cs : List Char) : List Char :=
  cs.dropWhile fun c => c = ' ' || c = '\t' || c = '\n' || c = '\r'

/-- The contents of a string over several lines behind its opening marks, and the text behind the
closing ones. A backslash at the end of a line joins the line with the next text. -/
def readLines? (mark : Char) : Nat → List Char → Option (List Char × List Char)
  | 0, _ => none
  | _, [] => none
  | bound + 1, c :: rest =>
    if c = mark && rest.take 2 = [mark, mark] then some ([], rest.drop 2)
    else if c = '\\' && mark = '"' then
      match skipNewline? (skipBlanks rest) with
      | some rest => readLines? mark bound (skipWhite rest)
      | none => do
        let (named, rest) ← escape? rest
        (readLines? mark bound rest).map (push named)
    else if isPlain c then (readLines? mark bound rest).map (push c)
    else do
      let rest ← skipNewline? (c :: rest)
      (readLines? mark bound rest).map (push '\n')

/-- The contents of a string that starts with `mark`, behind that mark, and the text behind it. A
line break right behind three opening marks is left out. -/
def readString? (bound : Nat) (mark : Char) (rest : List Char) :
    Option (String × List Char) := do
  let (contents, rest) ←
    if rest.take 2 = [mark, mark] then
      let body := rest.drop 2
      readLines? mark bound ((skipNewline? body).getD body)
    else readLine? mark bound rest
  some (String.ofList contents, rest)

/-- Whether a character may stand in a key without quotation marks. -/
def isBare (c : Char) : Bool :=
  c.isAlphanum || c = '_' || c = '-'

/-- One part of a key, and the text behind it. -/
def readSimpleKey? (bound : Nat) (cs : List Char) : Option (String × List Char) :=
  match cs with
  | [] => none
  | c :: rest =>
    if c = '"' || c = '\'' then do
      let (contents, rest) ← readLine? c bound rest
      some (String.ofList contents, rest)
    else if isBare c then some (String.ofList (cs.takeWhile isBare), cs.dropWhile isBare)
    else none

/-- The parts of a key, the last one apart, and the text behind it. -/
def readKey? : Nat → List Char → Option ((List String × String) × List Char)
  | 0, _ => none
  | bound + 1, cs => do
    let (key, rest) ← readSimpleKey? bound cs
    match skipBlanks rest with
    | '.' :: rest =>
      let ((steps, last), rest) ← readKey? bound (skipBlanks rest)
      some ((key :: steps, last), rest)
    | _ => some (([], key), rest)

/-- Whether an underscore stands at one of the ends or beside another underscore. -/
def misplacedUnderscore (digits : List Char) : Bool :=
  digits.head? = some '_' || digits.getLast? = some '_' ||
    (digits.zip digits.tail).any fun pair => pair.1 = '_' && pair.2 = '_'

/-- The number with the given digits, which underscores may separate. -/
def groupedNumber? (base : Nat) (digits : List Char) : Option Nat :=
  if digits.isEmpty || misplacedUnderscore digits then none
  else number? base (digits.filter (· ≠ '_'))

/-- The number with the given decimal digits: no zero stands in front of other digits. -/
def decimal? (digits : List Char) : Option Nat :=
  match digits with
  | '0' :: _ :: _ => none
  | _ => groupedNumber? 10 digits

/-- The integer that a word stands for. Integers have 64 bits. -/
def integer? (word : List Char) : Option Int := do
  let value : Int ←
    match word with
    | '0' :: 'x' :: digits => (groupedNumber? 16 digits).map Int.ofNat
    | '0' :: 'o' :: digits => (groupedNumber? 8 digits).map Int.ofNat
    | '0' :: 'b' :: digits => (groupedNumber? 2 digits).map Int.ofNat
    | '-' :: digits => (decimal? digits).map fun n => -Int.ofNat n
    | '+' :: digits => (decimal? digits).map Int.ofNat
    | digits => (decimal? digits).map Int.ofNat
  if -Int.ofNat (Nat.pow 2 63) ≤ value ∧ value < Int.ofNat (Nat.pow 2 63) then some value else none

/-- Whether a character may stand in a number or a date. -/
def isNumeric (c : Char) : Bool :=
  c.isAlphanum || c = '_' || c = '+' || c = '-' || c = '.' || c = ':'

mutual

/-- A value and the text behind it. -/
def readValue? : Nat → List Char → Option (Value × List Char)
  | 0, _ => none
  | _, [] => none
  | bound + 1, c :: rest =>
    if c = '"' || c = '\'' then
      (readString? bound c rest).map fun (contents, rest) => (.string contents, rest)
    else if c = '[' then do
      let (items, rest) ← readItems? bound (← skipSpace? bound rest)
      some (.array items, rest)
    else if c = '{' then
      match skipBlanks rest with
      | '}' :: rest => some (.table .inline [], rest)
      | rest => do
        let (entries, rest) ← readEntries? bound [] rest
        some (.table .inline entries, rest)
    else do
      let value ← integer? ((c :: rest).takeWhile isNumeric)
      some (.integer value, (c :: rest).dropWhile isNumeric)

/-- The items of an array, in front of an item or the closing bracket. -/
def readItems? : Nat → List Char → Option (List Value × List Char)
  | 0, _ => none
  | _, ']' :: rest => some ([], rest)
  | bound + 1, cs => do
    let (item, rest) ← readValue? bound cs
    match ← skipSpace? bound rest with
    | ',' :: rest =>
      let (items, rest) ← readItems? bound (← skipSpace? bound rest)
      some (item :: items, rest)
    | ']' :: rest => some ([item], rest)
    | _ => none

/-- The entries of an inline table behind those that have been read, in front of a key. -/
def readEntries? : Nat → Table → List Char → Option (Table × List Char)
  | 0, _, _ => none
  | bound + 1, table, cs => do
    let ((steps, key), rest) ← readKey? bound cs
    match skipBlanks rest with
    | '=' :: rest =>
      let (value, rest) ← readValue? bound (skipBlanks rest)
      let table ← insert key value steps table
      match skipBlanks rest with
      | ',' :: rest => readEntries? bound table (skipBlanks rest)
      | '}' :: rest => some (table, rest)
      | _ => none
    | _ => none

end

/-- The table of a text behind the lines that have been read. `header` is the table that keys are
added to. -/
def readTable? : Nat → Table → List String → List Char → Option Table
  | 0, _, _, _ => none
  | bound + 1, table, header, cs =>
    match skipBlanks cs with
    | [] => some table
    | '[' :: rest => do
      let ((steps, key), rest) ← readKey? bound (skipBlanks rest)
      match skipBlanks rest with
      | ']' :: rest =>
        let table ← openHeader (steps ++ [key]) table
        readTable? bound table (steps ++ [key]) (← skipLineEnd? rest)
      | _ => none
    | c :: rest =>
      if c = '#' || c = '\n' || c = '\r' then do
        readTable? bound table header (← skipLineEnd? (c :: rest))
      else do
        let ((steps, key), rest) ← readKey? bound (c :: rest)
        match skipBlanks rest with
        | '=' :: rest =>
          let (value, rest) ← readValue? bound (skipBlanks rest)
          let table ← insertBelow steps key value header table
          readTable? bound table header (← skipLineEnd? rest)
        | _ => none

/-- The table that a text stands for. A byte order mark in front of it is left out. -/
def parse? (text : String) : Option Table :=
  let cs :=
    match text.toList with
    | '\ufeff' :: rest => rest
    | cs => cs
  readTable? (cs.length + 2) [] [] cs

end ServiceDef.Toml
