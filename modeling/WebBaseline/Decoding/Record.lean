import WebBaseline.Decoding.Fault

/-!
# Reading records from structured data

`Format` is what a data format offers: scalars, lists, choices and the fields
of a record.  Records are read alike from every format: each field changes the
record that has been read so far, a field that is not given keeps its default,
and a required one must be given.
-/

namespace WebBaseline.Decoding

/-- The fields of a record as they are given. -/
inductive Layout (ν : Type) where
  /-- Values with their names, which are values too. -/
  | named (entries : List (ν × ν))
  /-- Values in the order of the fields. -/
  | positional (values : List ν)

/-- The operations of a format with nodes `ν` and errors `ε`. -/
structure Format (ν ε : Type) where
  /-- A fault at a node. -/
  fault : ν → Fault → ε
  /-- The place of an error as seen from the record around it, whose key comes second. -/
  inField : ν → ν → ε → ε
  /-- The place of an error as seen from the list around it. -/
  inElement : ν → Nat → ε → ε
  /-- Whether a node that may be left out stands for nothing. -/
  isNothing : ν → Except ε Bool
  /-- A natural number below a bound; the text names its type. -/
  natural : Nat → String → ν → Except ε Nat
  /-- A signed integer of 64 bits. -/
  integer : ν → Except ε Int
  /-- A text; the message says what it is. -/
  text : String → ν → Except ε String
  boolean : ν → Except ε Bool
  /-- The items of a list. -/
  items : ν → Except ε (List ν)
  /-- The entries of a dictionary. -/
  entries : ν → Except ε (List (ν × ν))
  /-- The fields of a record; the message names its type. -/
  layout : String → ν → Except ε (Layout ν)
  /-- One of several names. -/
  choice : List String → ν → Except ε String

/-- A field: its name, whether it must be given, and what its value changes. -/
structure Field (ν ε R : Type) where
  name : String
  required : Bool
  read : ν → Except ε (R → R)

variable {ν ε R α : Type}

/-- A field that may be left out. -/
def Field.optional (name : String) (read : ν → Except ε α) (set : α → R → R) : Field ν ε R :=
  ⟨name, false, fun n => (read n).map set⟩

/-- A field that must be given. -/
def Field.mandatory (name : String) (read : ν → Except ε α) (set : α → R → R) : Field ν ε R :=
  ⟨name, true, fun n => (read n).map set⟩

namespace Format

variable (f : Format ν ε)

/-- Read fields by name.  `node` is the whole record, `given` are the names met so far. -/
def readNamed (fields : List (Field ν ε R)) (strict : Bool) (node : ν) :
    List (ν × ν) → List String → R → Except ε (List String × R)
  | [], given, r => .ok (given, r)
  | (key, value) :: rest, given, r => do
    let name ← f.text "field identifier" key
    match fields.find? (·.name == name) with
    | none =>
      if strict then .error (f.fault key (.unknownField name (fields.map (·.name))))
      else readNamed fields strict node rest given r
    | some field =>
      if given.contains name then .error (f.fault node (.repeatedField name))
      else
        match field.read value with
        | .error e => .error (f.inField node key e)
        | .ok change => readNamed fields strict node rest (name :: given) (change r)

/-- Read fields by position.  `node` is the whole record. -/
def readPositional (typeName : String) (total : Nat) (node : ν) :
    List (Field ν ε R) → List ν → Nat → R → Except ε R
  | [], [], _, r => .ok r
  | [], rest, count, _ =>
    .error (f.fault node (.wrongLength (count + rest.length) "fewer elements in array"))
  | field :: fields, [], count, r =>
    if field.required then
      .error (f.fault node (.wrongLength count
        ("struct " ++ typeName ++ " with " ++ toString total ++
          (if total = 1 then " element" else " elements"))))
    else readPositional typeName total node fields [] count r
  | field :: fields, v :: rest, count, r =>
    match field.read v with
    | .error e => .error (f.inElement node count e)
    | .ok change => readPositional typeName total node fields rest (count + 1) (change r)

/-- Read a record, starting from its defaults.  A strict record has no other fields. -/
def readRecord (typeName : String) (strict : Bool) (fields : List (Field ν ε R)) (start : R)
    (node : ν) : Except ε R := do
  match ← f.layout ("struct " ++ typeName) node with
  | .named entries =>
    let (given, r) ← f.readNamed fields strict node entries [] start
    match fields.find? fun field => field.required && !given.contains field.name with
    | some field => .error (f.fault node (.missingField field.name))
    | none => .ok r
  | .positional values => f.readPositional typeName fields.length node fields values 0 start

/-- Read items of a list, `node`, with the number of the first. -/
def readItems (read : ν → Except ε α) (node : ν) : Nat → List ν → Except ε (List α)
  | _, [] => .ok []
  | i, v :: rest =>
    match read v with
    | .error e => .error (f.inElement node i e)
    | .ok a => (readItems read node (i + 1) rest).map (a :: ·)

/-- Read a list. -/
def readList (read : ν → Except ε α) (node : ν) : Except ε (List α) := do
  f.readItems read node 0 (← f.items node)

/-- Read a value that may be nothing. -/
def readOptional (read : ν → Except ε α) (node : ν) : Except ε (Option α) := do
  if ← f.isNothing node then return none
  (read node).map some

/-- Read one of several named values. -/
def readChoice (choices : List (String × α)) (node : ν) : Except ε α := do
  let names := choices.map (·.1)
  let name ← f.choice names node
  match choices.find? (·.1 == name) with
  | some (_, a) => .ok a
  | none => .error (f.fault node (.unknownChoice name names))

/-- Read the entries of a dictionary of texts, `node`; the last value of a key counts. -/
def readTexts (insert : String → String → α → α) (node : ν) : List (ν × ν) → α → Except ε α
  | [], acc => .ok acc
  | (k, v) :: rest, acc => do
    let key ← f.text "a string" k
    match f.text "a string" v with
    | .error e => .error (f.inField node k e)
    | .ok value => readTexts insert node rest (insert key value acc)

end Format

end WebBaseline.Decoding
