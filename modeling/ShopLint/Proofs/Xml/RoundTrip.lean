import ShopLint.Proofs.Xml.StartTag
import ShopLint.Proofs.Xml.Written

/-!
Documents read back as they were written. From a stretch of text the reader adds nodes where it stands
(`Yields`), and stretches that follow one another add theirs in turn. So what has been written of a tree is
read as that tree, with the line breaks that its layout puts between elements.
-/

namespace ShopLint.Xml

/-! Tokens -/

theorem next?_shorter {text rest : List Char} {tokens : List Token} (h : next? text = some (tokens, rest))
    (nonempty : text ≠ []) : rest.length < text.length := by
  have markup {read : List Char → Option (Token × List Char)} (reads : ReadsOther read)
      {inner : List Char} (inside : inner.length < text.length)
      (h : (read inner).map (fun p => ([p.1], p.2)) = some (tokens, rest)) : rest.length < text.length := by
    obtain ⟨⟨token, after⟩, found, eq⟩ := Option.map_eq_some_iff.1 h
    obtain ⟨_, rfl⟩ := Prod.mk.inj eq
    exact Nat.lt_of_le_of_lt (reads found).1.length_le inside
  unfold next? at h
  split at h
  next => exact markup closingTag?_other (by simp only [List.length_cons]; omega) h
  next => exact markup instruction?_other (by simp only [List.length_cons]; omega) h
  next => exact markup declaration?_other (by simp only [List.length_cons]; omega) h
  next inner _ _ _ =>
    simp only [openingTag?, Option.bind_eq_bind, Option.bind_eq_some_iff] at h
    obtain ⟨⟨name, after⟩, isName, ⟨attrs, closed, rest'⟩, isAttrs, eq⟩ := h
    obtain rfl := name?_rest isName
    obtain ⟨_, rfl⟩ := Prod.mk.inj (Option.some.inj eq)
    have inInner := (attrs?_placed isAttrs).2.1.trans (List.dropWhile_suffix isNameByte)
    exact Nat.lt_succ_of_le inInner.length_le
  next notMarkup =>
    obtain ⟨c, cs, rfl⟩ := List.exists_cons_of_ne_nil nonempty
    have first : decide (c ≠ '<') = true := decide_eq_true fun mark => notMarkup cs (by rw [mark])
    simp only [charData?] at h
    split at h
    · cases h
    · obtain ⟨⟨token, after⟩, found, eq⟩ := Option.map_eq_some_iff.1 h
      obtain ⟨_, _, data⟩ := Option.map_eq_some_iff.1 found
      obtain ⟨_, rfl⟩ := Prod.mk.inj eq
      obtain ⟨_, rfl⟩ := Prod.mk.inj data
      have dropped : (c :: cs).dropWhile (fun x => decide (x ≠ '<')) = cs.dropWhile (· ≠ '<') :=
        List.dropWhile_cons_of_pos first
      dsimp only
      rw [dropped]
      exact Nat.lt_succ_of_le (List.dropWhile_suffix _).length_le

theorem tokensUpTo_eq {text : List Char} {fuel fuel' : Nat} (enough : text.length ≤ fuel)
    (enough' : text.length ≤ fuel') : tokensUpTo fuel text = tokensUpTo fuel' text := by
  induction fuel generalizing text fuel' with
  | zero =>
    obtain rfl : text = [] := List.eq_nil_of_length_eq_zero (by omega)
    cases fuel' <;> rfl
  | succ fuel ih =>
    cases fuel' with
    | zero =>
      obtain rfl : text = [] := List.eq_nil_of_length_eq_zero (by omega)
      rfl
    | succ fuel' =>
      simp only [tokensUpTo]
      split
      · rfl
      next nonempty =>
        cases read : next? text with
        | none => rfl
        | some p =>
          have := next?_shorter read (by simpa using nonempty)
          simp only [Option.bind_eq_bind, Option.bind_some]
          rw [ih (by omega) (show p.2.length ≤ fuel' by omega)]

/-- The first step of the reader, and what follows it. -/
theorem tokens?_of_ne_nil {text : List Char} (nonempty : text ≠ []) :
    tokens? text = (next? text).bind fun p => (tokens? p.2).map (p.1 ++ ·) := by
  obtain ⟨c, cs, rfl⟩ := List.exists_cons_of_ne_nil nonempty
  rw [tokens?, List.length_cons, tokensUpTo, if_neg (by simp)]
  cases read : next? (c :: cs) with
  | none => rfl
  | some p =>
    have shorter := next?_shorter read nonempty
    rw [List.length_cons] at shorter
    simp only [Option.bind_eq_bind, Option.bind_some, tokens?]
    rw [tokensUpTo_eq (show p.2.length ≤ cs.length by omega) (Nat.le_refl _)]
    cases tokensUpTo p.2.length p.2 <;> rfl

/-- The reader takes the tokens from the start of the text and leaves the rest. -/
inductive Reads : List Char → List Token → List Char → Prop
  | done (rest : List Char) : Reads rest [] rest
  | step {text mid rest : List Char} {tokens later : List Token} (nonempty : text ≠ [])
      (read : next? text = some (tokens, mid)) (onward : Reads mid later rest) :
      Reads text (tokens ++ later) rest

section

variable {text mid rest : List Char} {tokens later : List Token}

theorem Reads.trans (h : Reads text tokens mid) (onward : Reads mid later rest) :
    Reads text (tokens ++ later) rest := by
  induction h with
  | done => exact onward
  | step nonempty read _ ih =>
    rw [List.append_assoc]
    exact .step nonempty read (ih onward)

theorem Reads.tokens?_eq (h : Reads text tokens rest) : tokens? text = (tokens? rest).map (tokens ++ ·) := by
  induction h with
  | done rest => cases tokens? rest <;> rfl
  | step nonempty read _ ih =>
    rw [tokens?_of_ne_nil nonempty, read, Option.bind_some, ih, Option.map_map]
    simp only [Function.comp_def, List.append_assoc]

end

/-! Where nodes are added -/

/-- Where the reader stands: the nodes at the top so far, the last first, and the elements around. -/
structure Cursor where
  top : List Node
  stack : List Pending

namespace Cursor

/-- The next node where the reader stands. -/
def add (p : Cursor) (node : Node) : Cursor :=
  match p.stack with
  | [] => { p with top := node :: p.top }
  | current :: stack => { p with stack := { current with children := node :: current.children } :: stack }

/-- The document when the tokens are still to come. -/
def build (p : Cursor) (tokens : List Token) : Option (List Node) := Xml.build p.top p.stack tokens

variable (p : Cursor) (top nodes children : List Node) (stack : List Pending) (name : Name)
  (attrs : List Attr) (more : List Token)

theorem build_text (content : String) : p.build (.text content :: more) = (p.add (.text content)).build more := by
  obtain ⟨top, stack⟩ := p
  cases stack <;> rfl

theorem build_comment : p.build (.comment :: more) = (p.add .comment).build more := by
  obtain ⟨top, stack⟩ := p
  cases stack <;> rfl

theorem build_opening :
    p.build (.opening name attrs :: more) = (⟨p.top, ⟨name, attrs, []⟩ :: p.stack⟩ : Cursor).build more := by
  obtain ⟨top, stack⟩ := p
  cases stack <;> rfl

theorem build_closing : (⟨p.top, ⟨name, attrs, children⟩ :: p.stack⟩ : Cursor).build (.closing name :: more) =
    (p.add (.element name attrs children.reverse)).build more := by
  obtain ⟨top, stack⟩ := p
  simp only [build, Xml.build, ne_eq, not_true_eq_false, if_false]
  cases stack <;> rfl

theorem foldl_add_pending : nodes.foldl add ⟨top, ⟨name, attrs, children⟩ :: stack⟩ =
    ⟨top, ⟨name, attrs, nodes.reverse ++ children⟩ :: stack⟩ := by
  induction nodes generalizing children with
  | nil => rfl
  | cons node nodes ih =>
    rw [List.foldl_cons, add, ih]
    simp

theorem foldl_add_top : nodes.foldl add ⟨top, []⟩ = ⟨nodes.reverse ++ top, []⟩ := by
  induction nodes generalizing top with
  | nil => rfl
  | cons node nodes ih =>
    rw [List.foldl_cons, add, ih]
    simp

end Cursor

/-- What is already at the top stays below. -/
theorem build_append (top below : List Node) (stack : List Pending) (tokens : List Token) :
    build (top ++ below) stack tokens = (build top stack tokens).map (· ++ below) := by
  fun_induction build top stack tokens with
  | case1 => rfl
  | case2 => rfl
  | case3 top stack name attrs tokens ih =>
    rw [← ih]
    cases stack <;> rfl
  | case4 => rfl
  | case5 top current stack name tokens other => simp only [build, if_pos other, Option.map_none]
  | case6 top current name tokens same node ih =>
    rw [← ih, build, if_neg same]
    rfl
  | case7 top current name tokens same node outer stack ih => rw [← ih, build, if_neg same]
  | case8 top token tokens notOpening notClosing ih =>
    rw [← ih, build]
    · rfl
    · exact notOpening
    · exact notClosing
  | case9 top current stack token tokens notOpening notClosing ih =>
    rw [← ih, build]
    · exact notOpening
    · exact notClosing

/-- Reading the text up to the rest adds the nodes, wherever the reader stands. -/
def Yields (text : List Char) (nodes : List Node) (rest : List Char) : Prop :=
  ∃ tokens, Reads text tokens rest ∧
    ∀ (p : Cursor) (more : List Token), p.build (tokens ++ more) = (nodes.foldl Cursor.add p).build more

namespace Yields

variable {text mid rest : List Char} {nodes later : List Node}

theorem refl (rest : List Char) : Yields rest [] rest := ⟨[], .done rest, fun _ _ => rfl⟩

theorem trans (h : Yields text nodes mid) (onward : Yields mid later rest) :
    Yields text (nodes ++ later) rest := by
  obtain ⟨tokens, reads, builds⟩ := h
  obtain ⟨tokens', reads', builds'⟩ := onward
  refine ⟨tokens ++ tokens', reads.trans reads', fun p more => ?_⟩
  rw [List.append_assoc, builds, builds', List.foldl_append]

/-- One step that reads a text or a comment. -/
theorem single {token : Token} {node : Node} (nonempty : text ≠ []) (read : next? text = some ([token], rest))
    (adds : ∀ (p : Cursor) (more : List Token), p.build (token :: more) = (p.add node).build more) :
    Yields text [node] rest :=
  ⟨[token], .step nonempty read (.done rest), adds⟩

theorem comment {inside : List Char} (found : Chars.cut ['-', '-'] text = some (inside, '>' :: rest)) :
    Yields ('<' :: '!' :: '-' :: '-' :: text) [.comment] rest :=
  single (by simp) (next?_comment found) fun p more => p.build_comment more

/-- The tags of an element and what is between them. -/
theorem element {name : Name} {attrs : List Attr} {inner after : List Char} (opens : text ≠ [])
    (opening : next? text = some ([.opening name attrs], inner)) (inside : Yields inner nodes after)
    (closes : after ≠ []) (closing : next? after = some ([.closing name], rest)) :
    Yields text [.element name attrs nodes] rest := by
  obtain ⟨tokens, reads, builds⟩ := inside
  refine ⟨_, .step opens opening (reads.trans (.step closes closing (.done rest))), fun p more => ?_⟩
  have split : [.opening name attrs] ++ (tokens ++ ([.closing name] ++ [])) ++ more =
      .opening name attrs :: (tokens ++ .closing name :: more) := by simp
  rw [split, Cursor.build_opening, builds, Cursor.foldl_add_pending, Cursor.build_closing]
  simp

/-- A tag that closes itself. -/
theorem closed {name : Name} {attrs : List Attr} (nonempty : text ≠ [])
    (read : next? text = some ([.opening name attrs, .closing name], rest)) :
    Yields text [.element name attrs []] rest := by
  refine ⟨_, .step nonempty read (.done rest), fun p more => ?_⟩
  have split : [.opening name attrs, .closing name] ++ [] ++ more =
      .opening name attrs :: .closing name :: more := by simp
  rw [split, Cursor.build_opening, Cursor.build_closing]
  rfl

/-- What is read first comes first in the document. -/
theorem parse?_eq (h : Yields text nodes rest) : parse? text = (parse? rest).map (nodes ++ ·) := by
  obtain ⟨tokens, reads, builds⟩ := h
  simp only [parse?, reads.tokens?_eq, Option.bind_eq_bind]
  cases tokens? rest with
  | none => rfl
  | some more =>
    have built := builds ⟨[], []⟩ more
    rw [Cursor.foldl_add_top] at built
    have below := build_append [] nodes.reverse [] more
    simp only [Cursor.build, List.append_nil, List.nil_append] at built below
    simp only [Option.map_some, Option.bind_some, built, below]
    cases build [] [] more <;> simp

end Yields

theorem parse?_nil : parse? [] = some [] := rfl

theorem parse?_eq_none {text : List Char} (nonempty : text ≠ []) (unread : next? text = none) :
    parse? text = none := by
  simp only [parse?, tokens?_of_ne_nil nonempty, unread]
  rfl

/-! The layout of a tree -/

/-- A line break as the text that it is read as. -/
def breakNode (depth : Nat) : Node := .text (String.ofList (lineBreak depth))

mutual

/-- A tree that stands at a depth, with the line breaks that are written with it. -/
def Node.laidOut (depth : Nat) : Node → Node
  | .element name attrs children =>
    .element name attrs (laidOutNodes (depth + 1) children ++
      if children.any Node.isElement then [breakNode depth] else [])
  | .text content => .text content
  | .comment => .comment
  | .other => .other

def laidOutNodes (depth : Nat) : List Node → List Node
  | [] => []
  | node :: nodes =>
    (if node.isElement then [breakNode depth] else []) ++ node.laidOut depth :: laidOutNodes depth nodes

end

/-- A tree that can be written: an element has other elements in it, or just a text. -/
inductive Node.Plain : Node → Prop
  | elements {name : Name} {attrs : List Attr} {children : List Node} (tag : TagWritable name attrs)
      (inside : ∀ child ∈ children, child.Plain) : Plain (.element name attrs children)
  | content {name : Name} {attrs : List Attr} {text : String} (tag : TagWritable name attrs)
      (kept : Kept text) (nonempty : text ≠ "") : Plain (.element name attrs [.text text])

theorem Node.Plain.isElement {node : Node} (h : node.Plain) : node.isElement := by
  cases h <;> rfl

theorem escape_lineBreak (depth : Nat) : escape (String.ofList (lineBreak depth)) = lineBreak depth := by
  have spaces (n : Nat) : (List.replicate n ' ').flatMap escapeChar = List.replicate n ' ' := by
    induction n with
    | zero => rfl
    | succ n ih =>
      rw [List.replicate_succ, List.flatMap_cons, ih]
      rfl
  rw [escape, String.toList_ofList, lineBreak, List.flatMap_cons, spaces]
  rfl

theorem kept_lineBreak (depth : Nat) : Kept (String.ofList (lineBreak depth)) := by
  intro c mem
  rw [String.toList_ofList, lineBreak] at mem
  rcases List.mem_cons.1 mem with rfl | mem
  · decide
  · obtain rfl := List.eq_of_mem_replicate mem
    decide

/-- A line break before a bracket. -/
theorem Yields.lineBreak (depth : Nat) (rest : List Char) :
    Yields (Xml.lineBreak depth ++ '<' :: rest) [breakNode depth] ('<' :: rest) := by
  have read := next?_text (kept_lineBreak depth) (by simp [Xml.lineBreak]) rest
  rw [escape_lineBreak] at read
  exact .single (by simp) read fun p more => p.build_text _ _

theorem Node.Plain.starts {node : Node} (h : node.Plain) (depth : Nat) :
    ∃ cs, node.indented depth = '<' :: cs := by
  cases h with
  | @elements name attrs children tag inside => cases children <;> exact ⟨_, by simp [Node.indented]; rfl⟩
  | content tag kept nonempty => exact ⟨_, by simp [Node.indented]; rfl⟩

/-- Elements one below the other, each on a line of its own. -/
theorem yields_row {nodes : List Node} (plain : ∀ node ∈ nodes, node.Plain)
    (read : ∀ node ∈ nodes, ∀ depth rest, Yields (node.indented depth ++ rest) [node.laidOut depth] rest)
    (depth : Nat) (rest : List Char) :
    Yields (indentedNodes depth nodes ++ rest) (laidOutNodes depth nodes) rest := by
  induction nodes with
  | nil => exact .refl _
  | cons node nodes ih =>
    obtain ⟨isPlain, othersPlain⟩ := List.forall_mem_cons.1 plain
    obtain ⟨readsNode, readsOthers⟩ := List.forall_mem_cons.1 read
    obtain ⟨cs, starts⟩ := isPlain.starts depth
    have onward := (readsNode depth _).trans (ih othersPlain readsOthers)
    rw [starts, List.cons_append] at onward
    have whole := (Yields.lineBreak depth _).trans onward
    simpa [indentedNodes, laidOutNodes, isPlain.isElement, starts] using whole

/-- What is written of a tree is read as the tree with its line breaks. -/
theorem Node.Plain.yields {node : Node} (h : node.Plain) :
    ∀ depth rest, Yields (node.indented depth ++ rest) [node.laidOut depth] rest := by
  induction h with
  | @elements name attrs children tag inside ih =>
    intro depth rest
    cases children with
    | nil =>
      have whole := Yields.closed (by simp) (next?_opening tag true rest)
      simpa [Node.indented, Node.laidOut, laidOutNodes, tagEnd] using whole
    | cons child children =>
      have some : (child :: children).any Node.isElement = true := by
        simp [(inside child List.mem_cons_self).isElement]
      have row := (yields_row inside ih (depth + 1) _).trans
        (Yields.lineBreak depth ('/' :: (name.text ++ '>' :: rest)))
      have whole := Yields.element (by simp) (next?_opening tag false _) row (by simp)
        (next?_closing tag.named rest)
      simpa [Node.indented, Node.laidOut, some, tagEnd] using whole
  | @content name attrs text tag kept nonempty =>
    intro depth rest
    have inner := Yields.single (by simp) (next?_text kept nonempty ('/' :: (name.text ++ '>' :: rest)))
      fun p more => p.build_text more text
    have whole := Yields.element (by simp) (next?_opening tag false _) inner (by simp)
      (next?_closing tag.named rest)
    simpa [Node.indented, indentedNodes, Node.laidOut, laidOutNodes, Node.isElement, tagEnd] using whole

/-- **A written document is read back.** -/
theorem parse?_document {root : Node} (h : root.Plain) :
    parse? root.document = some [root.laidOut 0, .text "\n"] := by
  have last : Yields ['\n'] [.text "\n"] [] := .single (by simp) rfl fun p more => p.build_text more _
  have whole := ((h.yields 0 _).trans last).parse?_eq
  rw [parse?_nil] at whole
  simpa [Node.document] using whole

end ShopLint.Xml
