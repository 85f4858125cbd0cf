import ClassFormat.Yaml.Token

namespace ClassFormat.Yaml

inductive Node where
  | plain (text : Text)
  | quoted (text : CodeText)
  | sequence (items : List Node)
  | mapping (entries : List (Node × Node))

namespace Node

/-- The node that stands in for a key or a value that is missing. -/
def empty : Node := plain []

def endsBlockEntry (ts : List Token) : Bool :=
  match ts.head? with
  | some .key => true
  | some .value => true
  | some .blockEnd => true
  | _ => false

def endsFlowItem (close : Token) (ts : List Token) : Bool :=
  ts.head? == some .flowEntry || ts.head? == some close

def reject {α : Type} : List Token → Except Error α
  | .fault e :: _ => .error e
  | _ => .error .invalid

/-- Passes the comma between two items of a flow collection; the last item may have one too. -/
def dropFlowEntry (first : Bool) (close : Token) (ts : List Token) : Except Error (List Token) :=
  if first || ts.head? == some close then .ok ts
  else
    match ts with
    | .flowEntry :: rest => .ok rest
    | ts => reject ts

/-- Collections may be nested this deeply. -/
def maxDepth : Nat := 490

def deeper (depth : Nat) : Except Error Nat :=
  if depth < maxDepth then .ok (depth + 1) else .error (.fault .tooDeep)

def consItem {α : Type} (a : α) (r : Except Error (List α × List Token)) :
    Except Error (List α × List Token) :=
  r.map fun (as, rest) => (a :: as, rest)

mutual

/-- Reads a node inside `depth` collections; block collections count only where `block` says so. -/
def read (block : Bool) (depth : Nat) : Nat → List Token → Except Error (Node × List Token)
  | 0, ts => reject ts
  | fuel + 1, ts =>
    match ts with
    | .plain text :: rest => .ok (plain text, rest)
    | .quoted text :: rest => .ok (quoted text, rest)
    | .flowSequenceStart :: rest => do
      let (items, rest) ← readFlowSequence (← deeper depth) true fuel rest
      return (sequence items, rest)
    | .flowMappingStart :: rest => do
      let (entries, rest) ← readFlowMapping (← deeper depth) true fuel rest
      return (mapping entries, rest)
    | .blockSequenceStart :: rest =>
      if block then do
        let (items, rest) ← readBlockSequence (← deeper depth) fuel rest
        return (sequence items, rest)
      else .error .invalid
    | .blockMappingStart :: rest =>
      if block then do
        let (entries, rest) ← readBlockMapping (← deeper depth) fuel rest
        return (mapping entries, rest)
      else .error .invalid
    | ts => reject ts
termination_by structural fuel _ => fuel

/-- Reads a key or a value of a block mapping. A sequence below a key needs no indentation. -/
def readPart (depth : Nat) : Nat → List Token → Except Error (Node × List Token)
  | 0, ts => reject ts
  | fuel + 1, ts =>
    if endsBlockEntry ts then .ok (empty, ts)
    else if ts.head? == some .blockEntry then do
      let (items, rest) ← readIndentless (← deeper depth) fuel ts
      return (sequence items, rest)
    else read true depth fuel ts
termination_by structural fuel _ => fuel

def readBlockSequence (depth : Nat) : Nat → List Token → Except Error (List Node × List Token)
  | 0, ts => reject ts
  | fuel + 1, ts =>
    match ts with
    | .blockEnd :: rest => .ok ([], rest)
    | .blockEntry :: rest => do
      let (item, rest) ←
        if rest.head? == some .blockEntry || rest.head? == some .blockEnd then .ok (empty, rest)
        else read true depth fuel rest
      consItem item (readBlockSequence depth fuel rest)
    | ts => reject ts
termination_by structural fuel _ => fuel

/-- Reads the items of a sequence that is not indented below its key. -/
def readIndentless (depth : Nat) : Nat → List Token → Except Error (List Node × List Token)
  | 0, ts => reject ts
  | fuel + 1, ts =>
    match ts with
    | .blockEntry :: rest => do
      let (item, rest) ←
        if rest.head? == some .blockEntry || endsBlockEntry rest then .ok (empty, rest)
        else read true depth fuel rest
      consItem item (readIndentless depth fuel rest)
    | ts => .ok ([], ts)
termination_by structural fuel _ => fuel

def readBlockMapping (depth : Nat) :
    Nat → List Token → Except Error (List (Node × Node) × List Token)
  | 0, ts => reject ts
  | fuel + 1, ts =>
    match ts with
    | .blockEnd :: rest => .ok ([], rest)
    | ts => do
      let (k, rest) ←
        match ts with
        | .key :: rest => readPart depth fuel rest
        | .value :: _ => .ok (empty, ts)
        | ts => reject ts
      let (v, rest) ←
        match rest with
        | .value :: rest => readPart depth fuel rest
        | rest => .ok (empty, rest)
      consItem (k, v) (readBlockMapping depth fuel rest)
termination_by structural fuel _ => fuel

/-- Reads an item of a flow collection, which may be missing. -/
def readFlowItem (close : Token) (depth : Nat) :
    Nat → List Token → Except Error (Node × List Token)
  | 0, ts => reject ts
  | fuel + 1, ts =>
    if endsFlowItem close ts || ts.head? == some .value then .ok (empty, ts)
    else read false depth fuel ts
termination_by structural fuel _ => fuel

/-- Reads the value of an entry of a flow collection, which may be missing. -/
def readFlowValue (close : Token) (depth : Nat) :
    Nat → List Token → Except Error (Node × List Token)
  | 0, ts => reject ts
  | fuel + 1, ts =>
    match ts with
    | .value :: rest =>
      if endsFlowItem close rest then .ok (empty, rest) else read false depth fuel rest
    | ts => .ok (empty, ts)
termination_by structural fuel _ => fuel

/-- Reads the items of a flow sequence; an item with a colon is a mapping of one entry. -/
def readFlowSequence (depth : Nat) (first : Bool) :
    Nat → List Token → Except Error (List Node × List Token)
  | 0, ts => reject ts
  | fuel + 1, ts => do
    match ← dropFlowEntry first .flowSequenceEnd ts with
    | .flowSequenceEnd :: rest => return ([], rest)
    | ts =>
      let (item, rest) ←
        match ts with
        | .key :: rest => do
          let inner ← deeper depth
          let (k, rest) ← readFlowItem .flowSequenceEnd inner fuel rest
          let (v, rest) ← readFlowValue .flowSequenceEnd inner fuel rest
          pure (mapping [(k, v)], rest)
        | ts => read false depth fuel ts
      consItem item (readFlowSequence depth false fuel rest)
termination_by structural fuel _ => fuel

/-- Reads the entries of a flow mapping; an entry without colon has no value. -/
def readFlowMapping (depth : Nat) (first : Bool) :
    Nat → List Token → Except Error (List (Node × Node) × List Token)
  | 0, ts => reject ts
  | fuel + 1, ts => do
    match ← dropFlowEntry first .flowMappingEnd ts with
    | .flowMappingEnd :: rest => return ([], rest)
    | ts =>
      let (k, rest) ←
        match ts with
        | .key :: rest => readFlowItem .flowMappingEnd depth fuel rest
        | .value :: _ => .ok (empty, ts)
        | ts => read false depth fuel ts
      let (v, rest) ←
        match ts with
        | .key :: _ => readFlowValue .flowMappingEnd depth fuel rest
        | .value :: _ => readFlowValue .flowMappingEnd depth fuel rest
        | _ => .ok (empty, rest)
      consItem (k, v) (readFlowMapping depth false fuel rest)
termination_by structural fuel _ => fuel

end

/-- A bound for the depth of the descent: between two calls that take a token there is at most one
other. -/
def fuelFor (ts : List Token) : Nat := 3 * ts.length + 3

def dropDocumentEnd : List Token → List Token
  | .documentEnd :: rest => rest
  | ts => ts

/-- The only document of the tokens; without a document the node is empty. -/
def ofTokens (ts : List Token) : Except Error Node := do
  let (node, rest) ←
    match ts with
    | [] => .ok (empty, [])
    | .documentStart :: rest =>
      if rest.isEmpty || rest.head? == some .documentEnd || rest.head? == some .documentStart then
        .ok (empty, rest)
      else read true 0 (fuelFor rest) rest
    | ts => read true 0 (fuelFor ts) ts
  match dropDocumentEnd rest with
  | [] => .ok node
  | rest => reject rest

end Node

end ClassFormat.Yaml
