import Dataflow.Config.Basic
import Dataflow.Proofs.Dependencies
import Dataflow.Proofs.Labels
import Mathlib.Data.Option.Basic

/-!
# Reading a drawing back

A reader of drawings scans the text character by character (`Drawing.Scan.step`): it finds words,
other signs, and texts in double quotes, which end at the first quote that is not escaped and lose
their escapes. What it finds is then read as a head, nodes and edges (`Drawing.sketch?`).

A text that was escaped leaves the scan where it was, in the text, with the text as it was before
(`Drawing.foldl_inText_escape`): whatever a node is called, its caption ends where it should. So
each line is scanned into its own tokens (`foldl_nodeLine`, `foldl_edgeLine`), lines into those of
one after the other (`foldl_lines`), and the drawing of a graph is read back as the mode, the nodes
and the edges of the graph (`Drawing.read_render`).
-/

set_option autoImplicit false
set_option relaxedAutoImplicit false

namespace Dataflow.Drawing

variable {ε σ : Type}

/-! ### Scanning -/

/-- What a drawing is made of. -/
inductive Token
  /-- A run of letters and digits. -/
  | word (chars : List Char)
  /-- A text that stood in double quotes, without its escapes. -/
  | text (chars : List Char)
  /-- Any other character but white space. -/
  | sign (c : Char)
  deriving DecidableEq, Repr

/-- Where the scan stands, with the tokens it has found: between two tokens, in a word, in a text,
or behind a backslash in a text. -/
inductive Scan
  | between (found : List Token)
  | inWord (found : List Token) (chars : List Char)
  | inText (found : List Token) (chars : List Char)
  | escaping (found : List Token) (chars : List Char)
  deriving DecidableEq, Repr

namespace Scan

/-- A character that begins a token, or stands between two. -/
def start (found : List Token) (c : Char) : Scan :=
  if c = '"' then inText found []
  else if c.isAlphanum then inWord found [c]
  else if c.isWhitespace then between found
  else between (found ++ [.sign c])

/-- One character. A text ends at the first quote that is not escaped; a backslash escapes a quote
or a backslash and is kept before any other character. -/
def step : Scan → Char → Scan
  | between found, c => start found c
  | inWord found chars, c =>
    if c.isAlphanum then inWord found (chars ++ [c]) else start (found ++ [.word chars]) c
  | inText found chars, c =>
    if c = '"' then between (found ++ [.text chars])
    else if c = '\\' then escaping found chars
    else inText found (chars ++ [c])
  | escaping found chars, c =>
    if c = '"' ∨ c = '\\' then inText found (chars ++ [c]) else inText found (chars ++ ['\\', c])

/-- The tokens of a text, unless it ends within quotes. -/
def tokens? : Scan → Option (List Token)
  | between found => some found
  | inWord found chars => some (found ++ [.word chars])
  | _ => none

end Scan

/-! ### Reading -/

/-- A node as it is drawn. -/
structure SketchedNode where
  id : Nat
  caption : String
  boxed : Bool
  deriving DecidableEq, Repr

/-- What is written at an edge: the input port it enters, or that it is dotted. -/
inductive EdgeMark
  | input (port : Nat)
  | dotted
  deriving DecidableEq, Repr

/-- An edge as it is drawn. -/
structure SketchedEdge where
  tail : Nat
  head : Nat
  mark : EdgeMark
  deriving DecidableEq, Repr

/-- What a drawing tells of a graph. -/
structure Sketch where
  mode : Mode
  direction : String
  nodes : List SketchedNode
  edges : List SketchedEdge
  deriving DecidableEq, Repr

/-- The number that a run of digits spells. -/
def digits? (chars : List Char) : Option Nat :=
  if chars ≠ [] ∧ chars.all Char.isDigit then some (Nat.ofDigitChars 10 chars 0) else none

/-- The node that a word names. -/
def nodeId? : List Char → Option Nat
  | 'n' :: digits => digits? digits
  | _ => none

/-- The mode that a word names. -/
def mode? (chars : List Char) : Option Mode :=
  [Mode.train, .apply, .eval].find? fun mode ↦ mode.name.toList = chars

/-- Whether a word names a box; `none` if it names no outline. -/
def boxed? (chars : List Char) : Option Bool :=
  if chars = "box".toList then some true
  else if chars = "ellipse".toList then some false
  else none

/-- A node or an edge. -/
abbrev Statement := SketchedNode ⊕ SketchedEdge

/-- Reads a node or an edge. -/
def statement? : List Token → Option Statement
  | [.word id, .sign '[', .word label, .sign '=', .text caption, .sign ',', .word shape, .sign '=',
      .word outline, .sign ']'] => do
    guard (label = "label".toList ∧ shape = "shape".toList)
    return .inl ⟨← nodeId? id, String.ofList caption, ← boxed? outline⟩
  | [.word tail, .sign '-', .sign '>', .word head, .sign '[', .word label, .sign '=', .text port,
      .sign ']'] => do
    guard (label = "label".toList)
    return .inr ⟨← nodeId? tail, ← nodeId? head, .input (← digits? port)⟩
  | [.word tail, .sign '-', .sign '>', .word head, .sign '[', .word style, .sign '=', .word dotted,
      .sign ']'] => do
    guard (style = "style".toList ∧ dotted = "dotted".toList)
    return .inr ⟨← nodeId? tail, ← nodeId? head, .dotted⟩
  | _ => none

/-- Reads a drawing: its head, and then nodes and edges in any order, each before a semicolon. -/
def sketch? : List Token → Option Sketch
  | .word digraph :: .word mode :: .sign '\x7b' :: .word rankdir :: .sign '=' :: .word direction ::
      .sign ';' :: body => do
    guard (digraph = "digraph".toList ∧ rankdir = "rankdir".toList)
    let parts := body.splitOn (.sign ';')
    guard (parts.getLast? = some [.sign '\x7d'])
    let statements ← parts.dropLast.mapM statement?
    return { mode := ← mode? mode, direction := String.ofList direction
             nodes := statements.filterMap Sum.getLeft?
             edges := statements.filterMap Sum.getRight? }
  | _ => none

/-- Reads a drawing back. -/
def read (drawing : String) : Option Sketch :=
  (drawing.toList.foldl Scan.step (.between [])).tokens?.bind sketch?

/-! ### What a drawing should tell -/

/-- What a drawing tells of a node. -/
def sketchNode (node : Node ε σ) : SketchedNode :=
  ⟨node.id, caption node, node.group.isSome⟩

/-- What a drawing tells of an edge. -/
def sketchEdge : Edge → SketchedEdge
  | .data tail head input => ⟨tail.node, head, .input input⟩
  | .state tail head => ⟨tail, head, .dotted⟩

/-- What a drawing tells of a graph. -/
def sketch (direction : String) (g : Graph ε σ) : Sketch :=
  ⟨g.mode, direction, g.nodes.map sketchNode, g.edges.map sketchEdge⟩

/-! ### Scanning what was drawn -/

/-- A character that was escaped is read as it was. -/
theorem foldl_inText_escaped (c : Char) (found : List Token) (chars : List Char) :
    (replaceChar '"' ['\\', '"'] (replaceChar '\\' ['\\', '\\'] [c])).foldl Scan.step
      (.inText found chars) = .inText found (chars ++ [c]) := by
  rcases eq_or_ne c '\\' with rfl | hbackslash
  · rfl
  · rcases eq_or_ne c '"' with rfl | hquote
    · rfl
    · simp [replaceChar, Scan.step, hbackslash, hquote]

/-- A text that was escaped is read as it was, whatever it is, and leaves the scan in the text. -/
theorem foldl_inText_escape (s : String) (found : List Token) (chars : List Char) :
    (escape s).toList.foldl Scan.step (.inText found chars) =
      .inText found (chars ++ s.toList) := by
  rw [escape, String.toList_ofList]
  induction s.toList generalizing chars with
  | nil => simp [replaceChar]
  | cons c rest ih =>
    have hsplit : replaceChar '"' ['\\', '"'] (replaceChar '\\' ['\\', '\\'] (c :: rest)) =
        replaceChar '"' ['\\', '"'] (replaceChar '\\' ['\\', '\\'] [c]) ++
          replaceChar '"' ['\\', '"'] (replaceChar '\\' ['\\', '\\'] rest) := by
      simp [replaceChar]
    rw [hsplit, List.foldl_append, foldl_inText_escaped, ih, List.append_assoc,
      List.singleton_append]

/-- Characters that are each added to what is being read are all added to it. -/
theorem foldl_collect {reading : List Char → Scan} {cs : List Char}
    (h : ∀ c ∈ cs, ∀ chars, Scan.step (reading chars) c = reading (chars ++ [c]))
    (chars : List Char) : cs.foldl Scan.step (reading chars) = reading (chars ++ cs) := by
  induction cs generalizing chars with
  | nil => simp
  | cons c cs ih =>
    rw [List.foldl_cons, h c List.mem_cons_self,
      ih fun d hd ↦ h d (List.mem_cons_of_mem c hd), List.append_assoc, List.singleton_append]

/-- Letters and digits are a word. -/
theorem foldl_word {cs : List Char} (hne : cs ≠ []) (h : ∀ c ∈ cs, c.isAlphanum)
    (found : List Token) : cs.foldl Scan.step (.between found) = .inWord found cs := by
  obtain ⟨c, rest, rfl⟩ := List.exists_cons_of_ne_nil hne
  have hc : c.isAlphanum := h c List.mem_cons_self
  have hquote : c ≠ '"' := fun heq ↦ absurd (heq ▸ hc) (by decide)
  rw [List.foldl_cons, Scan.step, Scan.start, if_neg hquote, if_pos hc]
  have hstep : ∀ d ∈ rest, ∀ chars,
      Scan.step (.inWord found chars) d = .inWord found (chars ++ [d]) :=
    fun d hd _ ↦ if_pos (h d (List.mem_cons_of_mem c hd))
  exact foldl_collect hstep [c]

theorem toList_name (id : NodeId) : (NodeId.name id).toList = 'n' :: Nat.toDigits 10 id := by
  simp [NodeId.name, String.toList_append]
  rfl

/-- The word that names a node. -/
def idToken (id : NodeId) : Token :=
  .word ('n' :: Nat.toDigits 10 id)

theorem foldl_name (id : NodeId) (found : List Token) :
    (NodeId.name id).toList.foldl Scan.step (.between found) =
      .inWord found ('n' :: Nat.toDigits 10 id) := by
  rw [toList_name]
  refine foldl_word (List.cons_ne_nil _ _) (fun c hc ↦ ?_) found
  rcases List.mem_cons.mp hc with rfl | hc
  · rfl
  · rw [Char.isAlphanum, Nat.isDigit_of_mem_toDigits (by decide) (by decide) hc, Bool.or_true]

/-- The tokens of a node's line before the semicolon. -/
def nodeTokens (node : Node ε σ) : List Token :=
  [idToken node.id, .sign '[', .word "label".toList, .sign '=', .text (caption node).toList,
    .sign ',', .word "shape".toList, .sign '=', .word (outline node).toList, .sign ']']

theorem foldl_nodeLine (node : Node ε σ) (found : List Token) :
    (nodeLine node).toList.foldl Scan.step (.between found) =
      .between (found ++ nodeTokens node ++ [.sign ';']) := by
  have hindent : "  ".toList.foldl Scan.step (.between found) = .between found := rfl
  have hlabel (id : List Char) : " [label=\"".toList.foldl Scan.step (.inWord found id) =
      .inText (found ++ [.word id, .sign '[', .word "label".toList, .sign '=']) [] := by
    simp [Scan.step, Scan.start]
  have hshape (found : List Token) (caption : List Char) :
      "\", shape=".toList.foldl Scan.step (.inText found caption) =
        .between (found ++ [.text caption, .sign ',', .word "shape".toList, .sign '=']) := by
    simp [Scan.step, Scan.start]
  have houtline (found : List Token) : (outline node).toList.foldl Scan.step (.between found) =
      .inWord found (outline node).toList := by
    unfold outline
    split <;> rfl
  have hend (found : List Token) (word : List Char) :
      "];\n".toList.foldl Scan.step (.inWord found word) =
        .between (found ++ [.word word, .sign ']', .sign ';']) := by
    simp [Scan.step, Scan.start]
  simp only [nodeLine, String.toList_append, List.foldl_append, hindent, foldl_name, hlabel,
    foldl_inText_escape, List.nil_append, hshape, houtline, hend]
  simp only [nodeTokens, idToken, List.append_assoc, List.cons_append, List.nil_append]

/-- The tokens of an edge's line before the semicolon. -/
def edgeTokens : Edge → List Token
  | .data tail head input =>
    [idToken tail.node, .sign '-', .sign '>', idToken head, .sign '[', .word "label".toList,
      .sign '=', .text (Nat.toDigits 10 input), .sign ']']
  | .state tail head =>
    [idToken tail, .sign '-', .sign '>', idToken head, .sign '[', .word "style".toList, .sign '=',
      .word "dotted".toList, .sign ']']

theorem foldl_digits (n : Nat) (found : List Token) :
    (toString n).toList.foldl Scan.step (.inText found []) =
      .inText found (Nat.toDigits 10 n) := by
  have hdigits : (toString n).toList = Nat.toDigits 10 n := String.toList_ofList
  rw [hdigits]
  have hstep : ∀ c ∈ Nat.toDigits 10 n, ∀ chars,
      Scan.step (.inText found chars) c = .inText found (chars ++ [c]) := by
    intro c hc chars
    have hdigit : c.isDigit := Nat.isDigit_of_mem_toDigits (by decide) (by decide) hc
    have hquote : c ≠ '"' := fun h ↦ absurd (h ▸ hdigit) (by decide)
    have hbackslash : c ≠ '\\' := fun h ↦ absurd (h ▸ hdigit) (by decide)
    rw [Scan.step, if_neg hquote, if_neg hbackslash]
  exact foldl_collect hstep []

theorem foldl_edgeLine (edge : Edge) (found : List Token) :
    (edgeLine edge).toList.foldl Scan.step (.between found) =
      .between (found ++ edgeTokens edge ++ [.sign ';']) := by
  have hindent : "  ".toList.foldl Scan.step (.between found) = .between found := rfl
  have harrow (found : List Token) (tail : List Char) :
      " -> ".toList.foldl Scan.step (.inWord found tail) =
        .between (found ++ [.word tail, .sign '-', .sign '>']) := by
    simp [Scan.step, Scan.start]
  cases edge with
  | data tail head input =>
    have hlabel (found : List Token) (head : List Char) :
        " [label=\"".toList.foldl Scan.step (.inWord found head) =
          .inText (found ++ [.word head, .sign '[', .word "label".toList, .sign '=']) [] := by
      simp [Scan.step, Scan.start]
    have hend (found : List Token) (port : List Char) :
        "\"];\n".toList.foldl Scan.step (.inText found port) =
          .between (found ++ [.text port, .sign ']', .sign ';']) := by
      simp [Scan.step, Scan.start]
    change ("  " ++ NodeId.name tail.node ++ " -> " ++ NodeId.name head ++ " [label=\"" ++
      toString input ++ "\"];\n").toList.foldl _ _ = _
    simp only [String.toList_append, List.foldl_append, hindent, foldl_name, harrow, hlabel,
      foldl_digits, hend]
    simp only [edgeTokens, idToken, List.append_assoc, List.cons_append, List.nil_append]
  | state tail head =>
    have hend (found : List Token) (head : List Char) :
        " [style=dotted];\n".toList.foldl Scan.step (.inWord found head) =
          .between (found ++ [.word head, .sign '[', .word "style".toList, .sign '=',
            .word "dotted".toList, .sign ']', .sign ';']) := by
      simp [Scan.step, Scan.start]
    change ("  " ++ NodeId.name tail ++ " -> " ++ NodeId.name head ++
      " [style=dotted];\n").toList.foldl _ _ = _
    simp only [String.toList_append, List.foldl_append, hindent, foldl_name, harrow, hend]
    simp only [edgeTokens, idToken, List.append_assoc, List.cons_append, List.nil_append]

/-- Lines one after another leave their tokens one after another. -/
theorem foldl_lines {α : Type} {line : α → String} {tokens : α → List Token}
    (h : ∀ a found, (line a).toList.foldl Scan.step (.between found) =
      .between (found ++ tokens a ++ [.sign ';'])) (items : List α) (found : List Token) :
    (String.join (items.map line)).toList.foldl Scan.step (.between found) =
      .between (found ++ items.flatMap fun a ↦ tokens a ++ [Token.sign ';']) := by
  rw [String.toList_join]
  induction items generalizing found with
  | nil => simp
  | cons a items ih =>
    rw [List.map_cons, List.flatMap_cons, List.foldl_append, h, ih, List.flatMap_cons,
      List.append_assoc, List.append_assoc, List.append_assoc]

/-- The tokens of the nodes and edges of a drawing and of its end. -/
def bodyTokens (g : Graph ε σ) : List Token :=
  g.nodes.flatMap (fun node ↦ nodeTokens node ++ [.sign ';']) ++
    (g.edges.flatMap (fun edge ↦ edgeTokens edge ++ [.sign ';']) ++ [.sign '\x7d'])

/-- The tokens of a drawing. -/
def drawingTokens (direction : String) (g : Graph ε σ) : List Token :=
  .word "digraph".toList :: .word g.mode.name.toList :: .sign '\x7b' :: .word "rankdir".toList ::
    .sign '=' :: .word direction.toList :: .sign ';' :: bodyTokens g

theorem tokens?_render {direction : String} (hne : direction.toList ≠ [])
    (hdirection : ∀ c ∈ direction.toList, c.isAlphanum) (g : Graph ε σ) :
    ((render direction g).toList.foldl Scan.step (.between [])).tokens? =
      some (drawingTokens direction g) := by
  have hhead : "digraph ".toList.foldl Scan.step (.between []) =
      .between [.word "digraph".toList] := rfl
  have hmode (found : List Token) : g.mode.name.toList.foldl Scan.step (.between found) =
      .inWord found g.mode.name.toList := by
    cases g.mode <;> rfl
  have hrankdir (found : List Token) (mode : List Char) :
      " \x7b\n  rankdir=".toList.foldl Scan.step (.inWord found mode) =
        .between (found ++ [.word mode, .sign '\x7b', .word "rankdir".toList, .sign '=']) := by
    simp [Scan.step, Scan.start]
  have hend (found : List Token) (word : List Char) :
      ";\n".toList.foldl Scan.step (.inWord found word) =
        .between (found ++ [.word word, .sign ';']) := by
    simp [Scan.step, Scan.start]
  have hclose (found : List Token) : "\x7d\n".toList.foldl Scan.step (.between found) =
      .between (found ++ [.sign '\x7d']) := rfl
  -- the text of a drawing at once: its pieces are scanned one after the other
  delta render
  simp only [String.toList_append, List.foldl_append]
  rw [hhead, hmode, hrankdir, foldl_word hne hdirection, hend, foldl_lines foldl_nodeLine,
    foldl_lines foldl_edgeLine, hclose]
  refine congrArg some ?_
  rw [drawingTokens, bodyTokens, List.append_assoc, List.append_assoc]
  rfl

/-! ### Reading what was scanned -/

theorem digits?_toDigits (n : Nat) : digits? (Nat.toDigits 10 n) = some n := by
  have hdigits : (Nat.toDigits 10 n).all Char.isDigit := List.all_eq_true.mpr fun c hc ↦
    Nat.isDigit_of_mem_toDigits (by decide) (by decide) hc
  rw [digits?, if_pos ⟨Nat.toDigits_ne_nil, hdigits⟩, Nat.ofDigitChars_ten_toDigits]

theorem mode?_name (mode : Mode) : mode? mode.name.toList = some mode := by
  cases mode <;> rfl

theorem boxed?_outline (node : Node ε σ) :
    boxed? (outline node).toList = some node.group.isSome := by
  cases hgroup : node.group.isSome <;> simp only [outline, hgroup] <;> rfl

theorem nodeId?_toDigits (id : NodeId) : nodeId? ('n' :: Nat.toDigits 10 id) = some id :=
  digits?_toDigits id

theorem statement?_nodeTokens (node : Node ε σ) :
    statement? (nodeTokens node) = some (.inl (sketchNode node)) := by
  have hread : statement? (nodeTokens node) = do
      let id ← nodeId? ('n' :: Nat.toDigits 10 node.id)
      let boxed ← boxed? (outline node).toList
      return .inl ⟨id, String.ofList (caption node).toList, boxed⟩ := rfl
  rw [hread, nodeId?_toDigits, boxed?_outline, String.ofList_toList]
  rfl

theorem statement?_edgeTokens (edge : Edge) :
    statement? (edgeTokens edge) = some (.inr (sketchEdge edge)) := by
  cases edge with
  | data tail head input =>
    have hread : statement? (edgeTokens (.data tail head input)) = do
        let tail ← nodeId? ('n' :: Nat.toDigits 10 tail.node)
        let head ← nodeId? ('n' :: Nat.toDigits 10 head)
        let port ← digits? (Nat.toDigits 10 input)
        return .inr ⟨tail, head, .input port⟩ := rfl
    rw [hread, nodeId?_toDigits, nodeId?_toDigits, digits?_toDigits]
    rfl
  | state tail head =>
    have hread : statement? (edgeTokens (.state tail head)) = do
        let tail ← nodeId? ('n' :: Nat.toDigits 10 tail)
        let head ← nodeId? ('n' :: Nat.toDigits 10 head)
        return .inr ⟨tail, head, .dotted⟩ := rfl
    rw [hread, nodeId?_toDigits, nodeId?_toDigits]
    rfl

theorem semicolon_notMem_nodeTokens (node : Node ε σ) : Token.sign ';' ∉ nodeTokens node := by
  simp [nodeTokens, idToken]

theorem semicolon_notMem_edgeTokens (edge : Edge) : Token.sign ';' ∉ edgeTokens edge := by
  cases edge <;> simp [edgeTokens, idToken]

theorem splitOn_lines {α : Type} {tokens : α → List Token} (h : ∀ a, Token.sign ';' ∉ tokens a)
    (items : List α) (rest : List Token) :
    (items.flatMap (fun a ↦ tokens a ++ [Token.sign ';']) ++ rest).splitOn (.sign ';') =
      items.map tokens ++ rest.splitOn (.sign ';') := by
  induction items with
  | nil => rfl
  | cons a items ih =>
    rw [List.flatMap_cons, List.append_assoc, List.append_assoc, List.singleton_append,
      List.splitOn_append_cons_self_of_not_mem (h a), ih, List.map_cons, List.cons_append]

theorem mapM_statement? (nodes : List (Node ε σ)) (edges : List Edge) :
    (nodes.map nodeTokens ++ edges.map edgeTokens).mapM statement? =
      some (nodes.map (fun node ↦ .inl (sketchNode node)) ++
        edges.map fun edge ↦ .inr (sketchEdge edge)) := by
  have hnodes : nodes.mapM (statement? ∘ nodeTokens) =
      some (nodes.map fun node ↦ .inl (sketchNode node)) :=
    mapM_eq_pure fun node _ ↦ statement?_nodeTokens node
  have hedges : edges.mapM (statement? ∘ edgeTokens) =
      some (edges.map fun edge ↦ .inr (sketchEdge edge)) :=
    mapM_eq_pure fun edge _ ↦ statement?_edgeTokens edge
  rw [List.mapM_append, List.mapM_map, List.mapM_map, hnodes, hedges]
  rfl

theorem splitOn_bodyTokens (g : Graph ε σ) :
    (bodyTokens g).splitOn (.sign ';') =
      g.nodes.map nodeTokens ++ g.edges.map edgeTokens ++ [[.sign '\x7d']] := by
  rw [bodyTokens, splitOn_lines semicolon_notMem_nodeTokens,
    splitOn_lines semicolon_notMem_edgeTokens, List.append_assoc]
  rfl

theorem sketch?_drawingTokens (direction : String) (g : Graph ε σ) :
    sketch? (drawingTokens direction g) = some (sketch direction g) := by
  have hread : sketch? (drawingTokens direction g) = do
      let parts := (bodyTokens g).splitOn (.sign ';')
      guard (parts.getLast? = some [.sign '\x7d'])
      let statements ← parts.dropLast.mapM statement?
      return { mode := ← mode? g.mode.name.toList, direction := String.ofList direction.toList
               nodes := statements.filterMap Sum.getLeft?
               edges := statements.filterMap Sum.getRight? } := rfl
  rw [hread]
  simp only [splitOn_bodyTokens, List.getLast?_concat, List.dropLast_concat, mapM_statement?,
    mode?_name, String.ofList_toList]
  simp [sketch, List.filterMap_append, List.filterMap_map, Function.comp_def]

/-- A drawing in a direction that is a word is read back. -/
theorem read_render_of_word {direction : String} (hne : direction.toList ≠ [])
    (hdirection : ∀ c ∈ direction.toList, c.isAlphanum) (g : Graph ε σ) :
    read (render direction g) = some (sketch direction g) := by
  rw [read, tokens?_render hne hdirection, Option.bind_some, sketch?_drawingTokens]

/-- Graphs that are drawn alike are alike in all that a drawing tells. -/
theorem sketch_eq_of_render_eq {direction : String} (hne : direction.toList ≠ [])
    (hdirection : ∀ c ∈ direction.toList, c.isAlphanum) {g g' : Graph ε σ}
    (h : render direction g = render direction g') : sketch direction g = sketch direction g' := by
  have hread := read_render_of_word hne hdirection g
  rw [h, read_render_of_word hne hdirection g'] at hread
  exact (Option.some.inj hread).symm

/-! ### Directions that are accepted -/

theorem effectiveDirection_mem {config : Config} (h : config.problems = []) :
    config.effectiveDirection ∈ Config.directions := by
  have haccepted := (List.append_eq_nil_iff.mp h).2
  rw [Config.effectiveDirection]
  cases hdirection : config.direction with
  | none => decide
  | some direction => simpa [hdirection] using haccepted

theorem word_of_mem_directions {direction : String} (h : direction ∈ Config.directions) :
    direction.toList ≠ [] ∧ ∀ c ∈ direction.toList, c.isAlphanum := by
  simp only [Config.directions, List.mem_cons, List.not_mem_nil, or_false] at h
  rcases h with rfl | rfl | rfl | rfl <;> simp

/-- A drawing in a direction that a configuration may choose is read back, whatever the actors are
called: it tells the mode, the nodes in order with their captions and outlines, and the edges in
order with the ports they enter or as dotted ones. The nodes of a graph that was built come in the
order of their numbers. -/
theorem read_render (config : Config) (hconfig : config.problems = []) (g : Graph ε σ) :
    read (render config.effectiveDirection g) = some
        { mode := g.mode
          direction := config.effectiveDirection
          nodes := g.nodes.map sketchNode
          edges := g.edges.map sketchEdge } ∧
      ∀ b : Builder ε σ, b.Assembled → b.build = .ok g →
        (g.nodes.map sketchNode).map SketchedNode.id = List.range g.nodes.length := by
  obtain ⟨hne, hword⟩ := word_of_mem_directions (effectiveDirection_mem hconfig)
  refine ⟨read_render_of_word hne hword g, ?_⟩
  intro b hb hbuild
  have hlinked := (Graph.valid_of_build hb hbuild).linked
  refine List.ext_getElem (by simp) fun k hk _ ↦ ?_
  rw [List.length_map, List.length_map] at hk
  rw [List.getElem_map, List.getElem_map, List.getElem_range]
  exact hlinked.id_eq k _ (List.getElem?_eq_getElem hk)

/-- Names that would end their text, the line and the drawing if they were not escaped. -/
def hostile : Graph Unit Unit :=
  { mode := .train
    nodes := [⟨0, .source, { Builtin.collector with name := "\"];\n\x7d\\" }, none, ⟨0, 1⟩⟩,
      ⟨1, .trainer, { Builtin.collector with name := "\\\\\"" }, some ⟨0, 0⟩, ⟨2, 0⟩⟩]
    edges := [.data ⟨0, 0⟩ 1 10, .state 0 1]
    groups := []
    order := [0, 1]
    source := 0
    sink := 1 }

theorem read_render_hostile :
    ({ direction := some "TB" } : Config).problems = [] ∧
      read (render "TB" hostile) = some
        { mode := .train
          direction := "TB"
          nodes := [⟨0, "n0:\"];\n\x7d\\", false⟩, ⟨1, "n1:\\\\\" (train)", true⟩]
          edges := [⟨0, 1, .input 10⟩, ⟨0, 1, .dotted⟩] } :=
  ⟨by decide, (read_render { direction := some "TB" } (by decide) hostile).1⟩

end Dataflow.Drawing
