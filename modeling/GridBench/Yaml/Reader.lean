/-
  GridBench.Yaml.Reader

  From tokens to a document.  The fuel bounds the number of tokens and nested
  nodes; every step takes a token or goes on to one that does.
-/
import GridBench.Yaml.Token.Lexer

namespace GridBench.Yaml

mutual

/-- How many events spell out a node. -/
def Node.size : Node → Nat
  | .scalar _ => 1
  | .alias _ => 1
  | .list _ items => 2 + sizeOfItems items
  | .table _ entries => 2 + sizeOfEntries entries

def sizeOfItems : List Node → Nat
  | [] => 0
  | n :: ns => n.size + sizeOfItems ns

def sizeOfEntries : List (Node × Node) → Nat
  | [] => 0
  | (k, n) :: es => k.size + n.size + sizeOfEntries es

end

/-- What is known while a document is being read. -/
structure Reading where
  tokens : List Token
  /-- Prefixes of tag handles. -/
  handles : List (String × String) := []
  /-- The number each anchor's name stands for at this point. -/
  names : List (String × Nat) := []
  /-- How many anchored nodes have begun. -/
  begun : Nat := 0
  /-- The anchored nodes read so far, each with its place in the order in which they began. -/
  anchored : List (Nat × Nat × Node) := []

namespace Reading

/-- The node that stands where nothing is written. -/
def emptyNode : Node := .scalar { text := "" }

/-- Whether the next token is one of those that leave the current node empty. -/
def sees (r : Reading) (ts : List Token) : Bool :=
  match r.tokens with
  | t :: _ => ts.contains t
  | [] => false

def drop (r : Reading) : Reading := { r with tokens := r.tokens.drop 1 }

/-- The full tag of a handle and a suffix. -/
def resolveTag (r : Reading) (handle suffix : String) : Option String :=
  if handle.isEmpty then some suffix
  else (r.handles.lookup handle).map (· ++ suffix)

/-- The anchor's name and tag before a node, in either order. -/
def properties (r : Reading) : Option (Option String × Option String × Reading) :=
  match r.tokens with
  | .anchor name :: .tag h s :: ts => do
    some (some name, some (← r.resolveTag h s), { r with tokens := ts })
  | .anchor name :: ts => some (some name, none, { r with tokens := ts })
  | .tag h s :: .anchor name :: ts => do
    some (some name, some (← r.resolveTag h s), { r with tokens := ts })
  | .tag h s :: ts => do some (none, some (← r.resolveTag h s), { r with tokens := ts })
  | _ => some (none, none, r)

/-- Gives a name the next number.  A name that is given again gets a new number but does not
    count again, so that a later anchor may share it. -/
def begin (r : Reading) (name : String) : Nat × Reading :=
  let number := r.names.length
  let others := r.names.filter fun p => p.1 ≠ name
  (number, { r with names := (name, number) :: others, begun := r.begun + 1 })

mutual

/-- A node.  `block` admits block lists and tables, `indentless` a list whose dashes are not
    indented below its key. -/
def node : Nat → Bool → Bool → Reading → Option (Node × Reading)
  | 0, _, _, _ => none
  | fuel + 1, block, indentless, r =>
    match r.tokens with
    | .alias name :: ts => do
      let number ← r.names.lookup name
      some (.alias number, { r with tokens := ts })
    | _ => do
      let (name?, tag, r) ← r.properties
      match name? with
      | none => content fuel block indentless tag false r
      | some name => do
        let order := r.begun
        let (number, r) := r.begin name
        let (n, r) ← content fuel block indentless tag true r
        some (n, { r with anchored := (order, number, n) :: r.anchored })

/-- What stands behind the properties of a node. -/
def content :
    Nat → Bool → Bool → Option String → Bool → Reading → Option (Node × Reading)
  | 0, _, _, _, _, _ => none
  | fuel + 1, block, indentless, tag, named, r =>
    match r.tokens with
    | .scalar text style :: ts => some (.scalar ⟨text, style, tag⟩, { r with tokens := ts })
    | .flowListStart :: ts =>
      (flowItems fuel true { r with tokens := ts }).map fun (ns, r) => (.list tag ns, r)
    | .flowTableStart :: ts =>
      (flowEntries fuel true { r with tokens := ts }).map fun (es, r) => (.table tag es, r)
    | t :: ts =>
      if t = .blockEntry && indentless then
        (indentlessItems fuel r).map fun (ns, r) => (.list tag ns, r)
      else if t = .blockListStart && block then
        (blockItems fuel { r with tokens := ts }).map fun (ns, r) => (.list tag ns, r)
      else if t = .blockTableStart && block then
        (blockEntries fuel { r with tokens := ts }).map fun (es, r) => (.table tag es, r)
      else if named || tag.isSome then some (.scalar ⟨"", .plain, tag⟩, r)
      else none
    | [] => if named || tag.isSome then some (.scalar ⟨"", .plain, tag⟩, r) else none

/-- A node, or the empty one if one of the given tokens comes next. -/
def nodeUnless : Nat → List Token → Bool → Bool → Reading → Option (Node × Reading)
  | 0, _, _, _, _ => none
  | fuel + 1, stops, block, indentless, r =>
    if r.sees stops then some (emptyNode, r) else node fuel block indentless r

/-- The items of a block list. -/
def blockItems : Nat → Reading → Option (List Node × Reading)
  | 0, _ => none
  | fuel + 1, r =>
    match r.tokens with
    | .blockEntry :: ts => do
      let (n, r) ← nodeUnless fuel [.blockEntry, .blockEnd] true false { r with tokens := ts }
      let (ns, r) ← blockItems fuel r
      some (n :: ns, r)
    | .blockEnd :: ts => some ([], { r with tokens := ts })
    | _ => none

/-- The items of a list whose dashes are not indented. -/
def indentlessItems : Nat → Reading → Option (List Node × Reading)
  | 0, _ => none
  | fuel + 1, r =>
    match r.tokens with
    | .blockEntry :: ts => do
      let (n, r) ←
        nodeUnless fuel [.blockEntry, .key, .value, .blockEnd] true false { r with tokens := ts }
      let (ns, r) ← indentlessItems fuel r
      some (n :: ns, r)
    | _ => some ([], r)

/-- The entries of a block table. -/
def blockEntries : Nat → Reading → Option (List (Node × Node) × Reading)
  | 0, _ => none
  | fuel + 1, r =>
    match r.tokens with
    | .key :: ts => do
      let stops : List Token := [.key, .value, .blockEnd]
      let (k, r) ← nodeUnless fuel stops true true { r with tokens := ts }
      let (n, r) ←
        if r.sees [.value] then nodeUnless fuel stops true true r.drop else some (emptyNode, r)
      let (es, r) ← blockEntries fuel r
      some ((k, n) :: es, r)
    | .blockEnd :: ts => some ([], { r with tokens := ts })
    | _ => none

/-- The items of a list in brackets.  An item with a colon is a table of one entry.  A missing
    key of such an entry takes the token behind it along. -/
def flowItems : Nat → Bool → Reading → Option (List Node × Reading)
  | 0, _, _ => none
  | fuel + 1, first, r =>
    if r.sees [.flowListEnd] then some ([], r.drop)
    else if !first && !r.sees [.flowEntry] then none
    else
      let r := if first then r else r.drop
      if r.sees [.flowListEnd] then some ([], r.drop)
      else if r.sees [.key] then do
        let r := r.drop
        let (k, r) ←
          if r.sees [.value, .flowEntry, .flowListEnd] then some (emptyNode, r.drop)
          else node fuel false false r
        let (n, r) ←
          if r.sees [.value] then nodeUnless fuel [.flowEntry, .flowListEnd] false false r.drop
          else some (emptyNode, r)
        let (ns, r) ← flowItems fuel false r
        some (.table none [(k, n)] :: ns, r)
      else do
        let (n, r) ← node fuel false false r
        let (ns, r) ← flowItems fuel false r
        some (n :: ns, r)

/-- The entries of a table in braces. -/
def flowEntries : Nat → Bool → Reading → Option (List (Node × Node) × Reading)
  | 0, _, _ => none
  | fuel + 1, first, r =>
    if r.sees [.flowTableEnd] then some ([], r.drop)
    else if !first && !r.sees [.flowEntry] then none
    else
      let r := if first then r else r.drop
      if r.sees [.flowTableEnd] then some ([], r.drop)
      else if r.sees [.key] then do
        let (k, r) ← nodeUnless fuel [.value, .flowEntry, .flowTableEnd] false false r.drop
        let (n, r) ←
          if r.sees [.value] then nodeUnless fuel [.flowEntry, .flowTableEnd] false false r.drop
          else some (emptyNode, r)
        let (es, r) ← flowEntries fuel false r
        some ((k, n) :: es, r)
      else do
        let (k, r) ← node fuel false false r
        let (es, r) ← flowEntries fuel false r
        some ((k, emptyNode) :: es, r)

end

/-- Reads the directives before a document: one version at most, and each tag handle once. -/
def directives : List Token → Bool → List (String × String) → Option (List (String × String) × List Token)
  | .versionDirective major minor :: ts, versioned, handles =>
    if versioned || major ≠ 1 || (minor ≠ 1 && minor ≠ 2) then none
    else directives ts true handles
  | .tagDirective handle start :: ts, versioned, handles =>
    if (handles.lookup handle).isSome then none
    else directives ts versioned ((handle, start) :: handles)
  | ts, _, handles => some (handles ++ [("!", "!"), ("!!", "tag:yaml.org,2002:")], ts)

/-- Whether a token opens a document by a marker or a directive. -/
def opensDocument : Token → Bool
  | .versionDirective .. => true
  | .tagDirective .. => true
  | .documentStart => true
  | _ => false

/-- The anchored nodes by number; of several with one number the one that began last counts. -/
def anchors (r : Reading) : List (Nat × Node) :=
  (r.anchored.mergeSort fun a b => b.1 ≤ a.1).map Prod.snd

/-- The document, if only markers of its end are left. -/
def finish (root : Option Node) (r : Reading) : Option Document :=
  if (r.tokens.dropWhile (· = .documentEnd)).isEmpty then
    some ⟨root, r.anchors, (root.map Node.size).getD 1⟩
  else none

/-- Reads the tokens of a single document. -/
def document (ts : List Token) : Option Document := do
  let fuel := 4 * ts.length + 8
  let (handles, rest) ← directives ts false []
  match ts with
  | [] => finish none { tokens := [] }
  | t :: _ =>
    if opensDocument t then
      match rest with
      | .documentStart :: rest =>
        let r : Reading := { tokens := rest, handles := handles }
        let ends : Bool := match rest with
          | [] => true
          | t :: _ => opensDocument t || t = .documentEnd
        if ends then finish (some emptyNode) r
        else
          let (n, r) ← node fuel true false r
          finish (some n) r
      | _ => none
    else
      let (n, r) ← node fuel true false { tokens := ts, handles := handles }
      finish (some n) r

end Reading

/-- Why a text is no document. -/
inductive TextError where
  /-- It is not well formed, or holds several documents. -/
  | malformed
  /-- It holds a character that no document may hold, at this byte. -/
  | control (position : Nat)
deriving DecidableEq, Repr

/-- The byte position of the first character that no document may hold. -/
def firstControl? : List Char → Nat → Option Nat
  | [], _ => none
  | c :: cs, position =>
    if isAllowed c then firstControl? cs (position + c.utf8Size) else some position

namespace Document

/-- Reads a text that holds a single document.  A byte order mark may come first. -/
def ofString (s : String) : Except TextError Document :=
  let (cs, start) := match s.toList with
    | c :: cs => if isByteOrderMark c then (cs, c.utf8Size) else (c :: cs, 0)
    | [] => ([], 0)
  match firstControl? cs start with
  | some position => .error (.control position)
  | none =>
    match (Lexer.tokens? cs).bind Reading.document with
    | some d => .ok d
    | none => .error .malformed

end Document

end GridBench.Yaml
