import ShopLint.Proofs.Php.Position
import ShopLint.Proofs.Text.Search
import ShopLint.Proofs.Xml.Order
import Mathlib.Data.List.TakeWhile

/-!
Start tags and the places of their attributes. The reader of a document keeps no places, so the text is
gone through once more, with the same readers: what is found is the document's elements in the order of
the text, with the place at which the value of each attribute is written.
-/

namespace ShopLint.Xml

/-- An attribute and its place: the text from its value on. -/
structure PlacedAttr where
  attr : Attr
  place : List Char
  deriving DecidableEq

/-- The text from the value of an attribute on. An attribute without a value has its name for one. -/
def valueFrom (text : List Char) : List Char :=
  match skipXmlBlanks (text.dropWhile isNameByte) with
  | '=' :: text => skipXmlBlanks text
  | _ => text

/-- The attributes at the start of a text. -/
def attrsFrom : Nat → List Char → List PlacedAttr
  | 0, _ => []
  | fuel + 1, text =>
    match attr? (skipXmlBlanks text) with
    | some (attr, rest) => ⟨attr, valueFrom (skipXmlBlanks text)⟩ :: attrsFrom fuel rest
    | none => []

/-- `attrs` with one more: where a name is given again, the last place counts. -/
def setPlaced (attrs : List PlacedAttr) (attr : PlacedAttr) : List PlacedAttr :=
  if attrs.any (·.attr.name = attr.attr.name) then
    attrs.map fun a => if a.attr.name = attr.attr.name then attr else a
  else attrs ++ [attr]

/-- A start tag: how deep it stands, its element without what is in it, and the text from the tag on. -/
structure StartTag where
  depth : Nat
  element : Element
  text : List Char

/-- The attributes of a start tag. -/
def StartTag.attrs (tag : StartTag) : List PlacedAttr :=
  let rest := tag.text.tail.dropWhile isNameByte
  (attrsFrom (rest.length + 1) rest).foldl setPlaced []

/-- The start tags of a text from the given depth on. -/
def startTagsFrom : Nat → Nat → List Char → List StartTag
  | 0, _, _ => []
  | fuel + 1, depth, text =>
    match next? text with
    | some (tokens, rest) =>
      (headsFrom depth tokens).map (fun p => ⟨p.1, p.2, text⟩) ++
        startTagsFrom fuel (depthAfter depth tokens) rest
    | none => []

/-- The start tags of a text, from top to bottom. -/
def startTags (text : List Char) : List StartTag := startTagsFrom text.length 0 text

/-! What a reader leaves is a last part of the text -/

section

variable {text rest : List Char}

theorem skipXmlBlanks_suffix (text : List Char) : skipXmlBlanks text <:+ text :=
  List.dropWhile_suffix _

theorem nameText?_rest {name : List Char} (h : nameText? text = some (name, rest)) :
    rest = text.dropWhile isNameByte := by
  simp only [nameText?] at h
  split at h
  · exact (Prod.mk.inj (Option.some.inj h)).2.symm
  · cases h

theorem name?_rest {name : Name} (h : name? text = some (name, rest)) :
    rest = text.dropWhile isNameByte := by
  simp only [name?, Option.bind_eq_bind, Option.bind_eq_some_iff] at h
  obtain ⟨⟨raw, after⟩, read, _, _, eq⟩ := h
  obtain ⟨_, rfl⟩ := Prod.mk.inj (Option.some.inj eq)
  exact nameText?_rest read

theorem quotedValue?_suffix {quote : Char} {value : String}
    (h : quotedValue? quote text = some (value, rest)) : rest <:+ text := by
  simp only [quotedValue?] at h
  split at h
  next c after found =>
    split at h
    · cases h
    · obtain ⟨_, _, eq⟩ := Option.map_eq_some_iff.1 h
      obtain ⟨_, rfl⟩ := Prod.mk.inj eq
      exact (List.suffix_cons c _).trans (found ▸ List.dropWhile_suffix _)
  next => cases h

theorem value?_suffix {value : String} (h : value? text = some (value, rest)) : rest <:+ text := by
  simp only [value?] at h
  split at h
  · cases h
  next c cs =>
    split at h
    · exact (quotedValue?_suffix h).trans (List.suffix_cons c cs)
    · obtain ⟨_, rfl⟩ := Prod.mk.inj (Option.some.inj h)
      exact List.dropWhile_suffix _

theorem valueFrom_of_equals {inner : List Char}
    (h : skipXmlBlanks (text.dropWhile isNameByte) = '=' :: inner) : valueFrom text = skipXmlBlanks inner := by
  simp only [valueFrom, h]

theorem valueFrom_of_no_equals
    (h : ∀ inner, skipXmlBlanks (text.dropWhile isNameByte) = '=' :: inner → False) :
    valueFrom text = text := by
  unfold valueFrom
  split
  next inner found => exact (h inner found).elim
  next => rfl

/-- The value of an attribute stands between its start and what follows it. -/
theorem attr?_suffix {attr : Attr} (h : attr? text = some (attr, rest)) :
    rest <:+ valueFrom text ∧ valueFrom text <:+ text := by
  simp only [attr?, Option.bind_eq_bind, Option.bind_eq_some_iff] at h
  obtain ⟨⟨name, after⟩, read, eq⟩ := h
  obtain rfl := name?_rest read
  have inText : skipXmlBlanks (text.dropWhile isNameByte) <:+ text :=
    (skipXmlBlanks_suffix _).trans (List.dropWhile_suffix _)
  dsimp only at eq
  split at eq
  next inner found =>
    simp only [Option.bind_eq_some_iff] at eq
    obtain ⟨⟨_, _⟩, isValue, eq⟩ := eq
    obtain ⟨_, rfl⟩ := Prod.mk.inj (Option.some.inj eq)
    rw [valueFrom_of_equals found]
    rw [found] at inText
    exact ⟨value?_suffix isValue, (skipXmlBlanks_suffix _).trans ((List.suffix_cons _ _).trans inText)⟩
  next notEquals =>
    obtain ⟨_, rfl⟩ := Prod.mk.inj (Option.some.inj eq)
    rw [valueFrom_of_no_equals notEquals]
    exact ⟨inText, List.suffix_rfl⟩

theorem attr?_eq_none {c : Char} (h : isNameByte c = false) (cs : List Char) : attr? (c :: cs) = none := by
  simp [attr?, name?, nameText?, h, isName]

theorem attrsFrom_succ {attr : Attr} (h : attr? (skipXmlBlanks text) = some (attr, rest)) (fuel : Nat) :
    attrsFrom (fuel + 1) text = ⟨attr, valueFrom (skipXmlBlanks text)⟩ :: attrsFrom fuel rest := by
  simp only [attrsFrom, h]

theorem attrsFrom_of_not_name {c : Char} {cs : List Char} (found : skipXmlBlanks text = c :: cs)
    (h : isNameByte c = false) (fuel : Nat) : attrsFrom fuel text = [] := by
  cases fuel with
  | zero => rfl
  | succ fuel => simp only [attrsFrom, found, attr?_eq_none h]

/-- The attributes of a tag are found at their places, between the start of the tag and its end. -/
theorem attrs?_placed {fuel : Nat} {attrs : List Attr} {closed : Bool}
    (h : attrs? fuel text = some (attrs, closed, rest)) :
    (attrsFrom fuel text).map PlacedAttr.attr = attrs ∧ rest <:+ text ∧
      ∀ a ∈ attrsFrom fuel text, rest <:+ a.place ∧ a.place <:+ text := by
  induction fuel generalizing text attrs with
  | zero => cases h
  | succ fuel ih =>
    have inText := skipXmlBlanks_suffix text
    simp only [attrs?] at h
    split at h
    next => cases h
    next after found =>
      obtain ⟨rfl, _, rfl⟩ : [] = attrs ∧ false = closed ∧ after = rest := by simpa using h
      rw [attrsFrom_of_not_name found (by decide)]
      rw [found] at inText
      exact ⟨rfl, (List.suffix_cons _ _).trans inText, by simp⟩
    next after found =>
      split at h
      next after =>
        obtain ⟨rfl, _, rfl⟩ : [] = attrs ∧ true = closed ∧ after = rest := by simpa using h
        rw [attrsFrom_of_not_name found (by decide)]
        rw [found] at inText
        exact ⟨rfl, (List.suffix_cons _ _).trans ((List.suffix_cons _ _).trans inText), by simp⟩
      next => cases h
    next =>
      simp only [Option.bind_eq_bind, Option.bind_eq_some_iff] at h
      obtain ⟨⟨attr, after⟩, isAttr, ⟨others, closed', rest'⟩, isOthers, eq⟩ := h
      obtain ⟨rfl, rfl, rfl⟩ : attr :: others = attrs ∧ closed' = closed ∧ rest' = rest := by
        simpa using eq
      obtain ⟨erased, inAfter, placed⟩ := ih isOthers
      obtain ⟨ends, starts⟩ := attr?_suffix isAttr
      have within := (ends.trans starts).trans inText
      rw [attrsFrom_succ isAttr]
      refine ⟨by rw [List.map_cons, erased], inAfter.trans within, ?_⟩
      rintro a mem
      rcases List.mem_cons.1 mem with rfl | mem
      · exact ⟨inAfter.trans ends, starts.trans inText⟩
      · exact ⟨(placed a mem).1, (placed a mem).2.trans within⟩

/-- A directive ends within the text. -/
theorem afterDirective?_suffix {skip depth : Nat} {quote : Option Char}
    (h : afterDirective? skip quote depth text = some rest) : rest <:+ text := by
  fun_induction afterDirective? skip quote depth text
  case case4 cs =>
    obtain rfl := Option.some.inj h
    exact List.suffix_cons _ _
  all_goals first
    | exact (‹_ → rest <:+ _› h).trans (List.suffix_cons _ _)
    | cases h

end

/-! What one step reads -/

section

/-- What is read opens no element, and the text that is left is a last part of the text. -/
def ReadsOther (read : List Char → Option (Token × List Char)) : Prop :=
  ∀ ⦃text token rest⦄, read text = some (token, rest) →
    rest <:+ text ∧ ∀ depth, headsFrom depth [token] = []

theorem closingTag?_other : ReadsOther closingTag? := by
  intro text token rest h
  simp only [closingTag?, Option.bind_eq_bind, Option.bind_eq_some_iff] at h
  obtain ⟨⟨name, after⟩, read, eq⟩ := h
  obtain rfl := name?_rest read
  have inText := (skipXmlBlanks_suffix _).trans (List.dropWhile_suffix isNameByte (l := text))
  dsimp only at eq
  split at eq
  next found =>
    obtain ⟨rfl, rfl⟩ := Prod.mk.inj (Option.some.inj eq)
    rw [found] at inText
    exact ⟨(List.suffix_cons _ _).trans inText, fun _ => rfl⟩
  next => cases eq

theorem instruction?_other : ReadsOther instruction? := by
  intro text token rest h
  simp only [instruction?, Option.bind_eq_bind, Option.bind_eq_some_iff] at h
  obtain ⟨⟨target, after⟩, read, ⟨content, rest'⟩, found, eq⟩ := h
  obtain rfl := nameText?_rest read
  dsimp only at found eq
  split at eq
  · cases eq
  · obtain ⟨rfl, rfl⟩ := Prod.mk.inj (Option.some.inj eq)
    have inText := (skipXmlBlanks_suffix _).trans (List.dropWhile_suffix isNameByte (l := text))
    exact ⟨(Chars.cut_suffix found).trans inText, fun _ => rfl⟩

theorem comment?_other : ReadsOther comment? := by
  intro text token rest h
  simp only [comment?, Option.bind_eq_bind, Option.bind_eq_some_iff] at h
  obtain ⟨⟨content, after⟩, found, eq⟩ := h
  dsimp only at eq
  split at eq
  · obtain ⟨rfl, rfl⟩ := Prod.mk.inj (Option.some.inj eq)
    exact ⟨(List.suffix_cons _ _).trans (Chars.cut_suffix found), fun _ => rfl⟩
  · cases eq

theorem cdata?_other : ReadsOther cdata? := by
  intro text token rest h
  simp only [cdata?, Option.bind_eq_bind, Option.bind_eq_some_iff] at h
  obtain ⟨⟨raw, after⟩, found, content, _, eq⟩ := h
  obtain ⟨rfl, rfl⟩ := Prod.mk.inj (Option.some.inj eq)
  exact ⟨Chars.cut_suffix found, fun _ => rfl⟩

theorem charData?_other : ReadsOther charData? := by
  intro text token rest h
  simp only [charData?] at h
  split at h
  · cases h
  · obtain ⟨content, _, eq⟩ := Option.map_eq_some_iff.1 h
    obtain ⟨rfl, rfl⟩ := Prod.mk.inj eq
    exact ⟨List.dropWhile_suffix _, fun _ => rfl⟩

theorem declaration?_other : ReadsOther declaration? := by
  intro text token rest h
  unfold declaration? at h
  split at h
  next => cases h
  next =>
    obtain ⟨inside, other⟩ := comment?_other h
    exact ⟨inside.trans ((List.suffix_cons _ _).trans (List.suffix_cons _ _)), other⟩
  next => cases h
  next =>
    obtain ⟨after, marked, read⟩ := Option.bind_eq_some_iff.1 h
    obtain ⟨inside, other⟩ := cdata?_other read
    rw [Chars.after?_eq_some.1 marked]
    exact ⟨inside.trans ((List.suffix_append _ _).trans (List.suffix_cons _ _)), other⟩
  next =>
    obtain ⟨after, found, eq⟩ := Option.map_eq_some_iff.1 h
    obtain ⟨rfl, rfl⟩ := Prod.mk.inj eq
    exact ⟨(afterDirective?_suffix found).trans (List.suffix_cons _ _), fun _ => rfl⟩

/-- The text starts with a start tag that has the given attributes, and `rest` follows it. -/
def IsStartTag (text : List Char) (attrs : List Attr) (rest : List Char) : Prop :=
  let inner := text.tail.dropWhile isNameByte
  ∃ given closed, attrs? (inner.length + 1) inner = some (given, closed, rest) ∧
    attrs = given.foldl setAttr [] ∧ inner <:+ text

/-- A step reads no start tag, or one that the text starts with. -/
theorem next?_cases {text rest : List Char} {tokens : List Token} (h : next? text = some (tokens, rest))
    (depth : Nat) :
    rest <:+ text ∧ (headsFrom depth tokens = [] ∨
      ∃ name attrs, IsStartTag text attrs rest ∧
        headsFrom depth tokens = [(depth, ⟨name, attrs, []⟩)]) := by
  have other {read : List Char → Option (Token × List Char)} (reads : ReadsOther read)
      {inner : List Char} (inside : inner <:+ text)
      (h : (read inner).map (fun p => ([p.1], p.2)) = some (tokens, rest)) :
      rest <:+ text ∧ headsFrom depth tokens = [] := by
    obtain ⟨⟨token, after⟩, found, eq⟩ := Option.map_eq_some_iff.1 h
    obtain ⟨rfl, rfl⟩ := Prod.mk.inj eq
    exact ⟨(reads found).1.trans inside, (reads found).2 depth⟩
  have marked (c d : Char) (inner : List Char) : inner <:+ c :: d :: inner :=
    (List.suffix_cons _ _).trans (List.suffix_cons _ _)
  unfold next? at h
  split at h
  next => exact (other closingTag?_other (marked _ _ _) h).imp_right .inl
  next => exact (other instruction?_other (marked _ _ _) h).imp_right .inl
  next => exact (other declaration?_other (marked _ _ _) h).imp_right .inl
  next inner _ _ _ =>
    simp only [openingTag?, Option.bind_eq_bind, Option.bind_eq_some_iff] at h
    obtain ⟨⟨name, after⟩, isName, ⟨attrs, closed, rest'⟩, isAttrs, eq⟩ := h
    obtain rfl := name?_rest isName
    obtain ⟨rfl, rfl⟩ := Prod.mk.inj (Option.some.inj eq)
    have inText := (List.dropWhile_suffix isNameByte).trans (List.suffix_cons '<' inner)
    refine ⟨(attrs?_placed isAttrs).2.1.trans inText, .inr ?_⟩
    refine ⟨name, _, ⟨attrs, closed, isAttrs, rfl, inText⟩, ?_⟩
    split <;> rfl
  next => exact (other charData?_other List.suffix_rfl h).imp_right .inl

end

/-! The attributes of a tag -/

section

variable {attrs : List PlacedAttr} {a : PlacedAttr}

theorem map_attr_setPlaced (attrs : List PlacedAttr) (a : PlacedAttr) :
    (setPlaced attrs a).map PlacedAttr.attr = setAttr (attrs.map PlacedAttr.attr) a.attr := by
  simp only [setPlaced, setAttr, List.any_map, Function.comp_def]
  split
  · simp only [List.map_map]
    refine List.map_congr_left fun b _ => ?_
    simp only [Function.comp_apply]
    split <;> rfl
  · simp

theorem map_attr_foldl_setPlaced (given attrs : List PlacedAttr) :
    (given.foldl setPlaced attrs).map PlacedAttr.attr =
      (given.map PlacedAttr.attr).foldl setAttr (attrs.map PlacedAttr.attr) := by
  induction given generalizing attrs with
  | nil => rfl
  | cons a given ih => rw [List.foldl_cons, ih, map_attr_setPlaced, List.map_cons, List.foldl_cons]

theorem mem_setPlaced {b : PlacedAttr} (h : b ∈ setPlaced attrs a) : b ∈ attrs ∨ b = a := by
  unfold setPlaced at h
  split at h
  · obtain ⟨d, mem, eq⟩ := List.mem_map.1 h
    split at eq
    · exact .inr eq.symm
    · exact .inl (eq ▸ mem)
  · simpa using h

theorem mem_foldl_setPlaced {given : List PlacedAttr} (h : a ∈ given.foldl setPlaced attrs) :
    a ∈ attrs ∨ a ∈ given := by
  induction given generalizing attrs with
  | nil => exact .inl h
  | cons b given ih =>
    rcases ih h with mem | mem
    · exact (mem_setPlaced mem).imp_right fun (same : a = b) => same ▸ List.mem_cons_self
    · exact .inr (List.mem_cons_of_mem _ mem)

/-- The attributes of a start tag are those of its element, at places before its end. -/
theorem IsStartTag.placed {attrs : List Attr} {rest : List Char} (tag : StartTag)
    (h : IsStartTag tag.text attrs rest) :
    tag.attrs.map PlacedAttr.attr = attrs ∧
      ∀ a ∈ tag.attrs, rest <:+ a.place ∧ a.place <:+ tag.text := by
  obtain ⟨given, closed, read, rfl, inside⟩ := h
  obtain ⟨erased, _, placed⟩ := attrs?_placed read
  refine ⟨by rw [StartTag.attrs, map_attr_foldl_setPlaced, erased]; rfl, fun a mem => ?_⟩
  obtain ⟨after, before⟩ := placed a ((mem_foldl_setPlaced mem).resolve_left (by simp))
  exact ⟨after, before.trans inside⟩

end

/-! The start tags of a document -/

section

variable {text : List Char}

@[simp] theorem startTagsFrom_nil (fuel depth : Nat) : startTagsFrom fuel depth [] = [] := by
  induction fuel generalizing depth with
  | zero => rfl
  | succ fuel ih =>
    have empty : next? [] = some ([.text ""], []) := by rfl
    simp [startTagsFrom, empty, headsFrom, depthAfter, ih]

theorem headsFrom_tokensUpTo {fuel : Nat} {tokens : List Token} (h : tokensUpTo fuel text = some tokens)
    (depth : Nat) :
    headsFrom depth tokens = (startTagsFrom fuel depth text).map fun tag => (tag.depth, tag.element) := by
  induction fuel generalizing text tokens depth with
  | zero =>
    obtain ⟨_, rfl⟩ : text = [] ∧ [] = tokens := by simpa [tokensUpTo] using h
    rfl
  | succ fuel ih =>
    simp only [tokensUpTo] at h
    split at h
    next empty =>
      obtain rfl := Option.some.inj h
      obtain rfl := List.isEmpty_iff.1 empty
      rw [startTagsFrom_nil]
      rfl
    next =>
      simp only [Option.bind_eq_bind, Option.bind_eq_some_iff] at h
      obtain ⟨⟨piece, rest⟩, read, later, isLater, eq⟩ := h
      obtain rfl := Option.some.inj eq
      simp only [startTagsFrom, read, headsFrom_append, ih isLater, List.map_append, List.map_map]
      simp [Function.comp_def]

/-- **A document has the elements of its start tags, level by level.** -/
theorem parse?_startTags {doc : List Node} (h : parse? text = some doc) :
    (allElements doc).map Element.head =
      (byLevel StartTag.depth (depthOf doc) (startTags text)).map StartTag.element ∧
    ∀ tag ∈ startTags text, tag.depth < depthOf doc := by
  simp only [parse?, Option.bind_eq_bind, Option.bind_eq_some_iff] at h
  obtain ⟨tokens, read, nodes, built, eq⟩ := h
  obtain rfl := Option.some.inj eq
  have heads : headsOf 0 nodes.reverse = (startTags text).map fun tag => (tag.depth, tag.element) := by
    rw [headsOf_build built, List.length_nil, headsFrom_tokensUpTo read]
    simp [headsOf, pendingHeads, startTags]
  constructor
  · rw [map_head_allElements, heads, ← map_byLevel Prod.fst, List.map_map]
    rfl
  · intro tag mem
    have deep := headsOf_depth 0 nodes.reverse (tag.depth, tag.element) (heads ▸ List.mem_map_of_mem mem)
    simpa using deep.2

/-- Elements chosen by their start tags alone are chosen among the start tags. -/
theorem map_head_filter_allElements {doc : List Node} (h : parse? text = some doc) {p : Element → Bool}
    (onHead : ∀ e : Element, p e = p e.head) :
    ((allElements doc).filter p).map Element.head =
      (byLevel StartTag.depth (depthOf doc) ((startTags text).filter (p ·.element))).map
        StartTag.element := by
  have chosen : (allElements doc).filter p = (allElements doc).filter (p ∘ Element.head) :=
    List.filter_congr fun e _ => onHead e
  rw [chosen, ← List.filter_map, (parse?_startTags h).1, List.filter_map, filter_byLevel]
  rfl

theorem startTagsFrom_placed {fuel depth : Nat} {tag : StartTag} (h : tag ∈ startTagsFrom fuel depth text) :
    tag.attrs.map PlacedAttr.attr = tag.element.attrs ∧ ∀ a ∈ tag.attrs, a.place <:+ text := by
  induction fuel generalizing depth text with
  | zero => cases h
  | succ fuel ih =>
    simp only [startTagsFrom] at h
    split at h
    next tokens rest read =>
      obtain ⟨inside, cases⟩ := next?_cases read depth
      rcases List.mem_append.1 h with mem | mem
      · rcases cases with none | ⟨name, attrs, isTag, one⟩
        · simp [none] at mem
        · rw [one, List.map_singleton] at mem
          obtain rfl := List.mem_singleton.1 mem
          obtain ⟨same, placed⟩ := isTag.placed ⟨depth, ⟨name, attrs, []⟩, text⟩
          exact ⟨same, fun a mem => (placed a mem).2⟩
      · obtain ⟨same, placed⟩ := ih mem
        exact ⟨same, fun a mem => (placed a mem).trans inside⟩
    next => cases h

/-- The attributes of an earlier tag stand before those of a later one. -/
theorem startTagsFrom_pairwise (fuel depth : Nat) (text : List Char) :
    (startTagsFrom fuel depth text).Pairwise fun tag later =>
      ∀ a ∈ tag.attrs, ∀ b ∈ later.attrs, b.place <:+ a.place := by
  induction fuel generalizing depth text with
  | zero => exact List.Pairwise.nil
  | succ fuel ih =>
    simp only [startTagsFrom]
    split
    next tokens rest read =>
      rcases (next?_cases read depth).2 with none | ⟨name, attrs, isTag, one⟩
      · simpa [none] using ih _ _
      · rw [one, List.map_singleton, List.singleton_append]
        refine List.pairwise_cons.2 ⟨fun later mem a placed b placed' => ?_, ih _ _⟩
        have before := (isTag.placed ⟨depth, ⟨name, attrs, []⟩, text⟩).2 a placed
        exact ((startTagsFrom_placed mem).2 b placed').trans before.1
    next => exact List.Pairwise.nil

end

/-! Values in double quotes -/

/-- The value is written in double quotes and without references, as the given text. -/
def PlacedAttr.WrittenAs (a : PlacedAttr) (raw : List Char) : Prop :=
  '"' ∉ raw ∧ '&' ∉ raw ∧ ∃ rest, a.place = '"' :: (raw ++ '"' :: rest)

section

variable {text raw rest : List Char}

/-- Without carriage returns and references, a text stands for itself. -/
theorem decodeFrom_eq_self (noReturn : '\r' ∉ raw) (noReference : '&' ∉ raw) :
    decodeFrom true 0 raw = raw := by
  induction raw with
  | nil => rfl
  | cons c cs ih =>
    obtain ⟨notReturn, noReturn⟩ := not_or.1 (mt List.mem_cons.2 noReturn)
    obtain ⟨notReference, noReference⟩ := not_or.1 (mt List.mem_cons.2 noReference)
    simp [decodeFrom, Ne.symm notReturn, Ne.symm notReference, ih noReturn noReference]

theorem quotedValue?_append {value : String} {more : List Char} (closed : '"' ∉ raw)
    (h : quotedValue? '"' (raw ++ '"' :: more) = some (value, rest)) : decoded? true raw = some value := by
  cases stop : raw.dropWhile fun c => c ≠ '"' && c ≠ '<' with
  | nil =>
    have inside := List.dropWhile_eq_nil_iff.1 stop
    have taken : (raw ++ '"' :: more).takeWhile (fun c => c ≠ '"' && c ≠ '<') = raw := by
      rw [List.takeWhile_append_of_pos inside]
      simp
    have left : (raw ++ '"' :: more).dropWhile (fun c => c ≠ '"' && c ≠ '<') = '"' :: more := by
      rw [List.dropWhile_append_of_pos inside]
      simp
    simp only [quotedValue?, taken, left] at h
    obtain ⟨_, decoded, eq⟩ := Option.map_eq_some_iff.1 h
    rw [decoded, (Prod.mk.inj eq).1]
  | cons c cs =>
    -- the value would break off at an opening bracket
    have inRaw : c ∈ raw := (List.dropWhile_suffix _).subset (stop ▸ List.mem_cons_self)
    have other : c ≠ '"' := fun same => closed (same ▸ inRaw)
    have left : (raw ++ '"' :: more).dropWhile (fun c => c ≠ '"' && c ≠ '<') = c :: (cs ++ '"' :: more) := by
      rw [List.dropWhile_append, stop]
      rfl
    simp only [quotedValue?, left] at h
    rw [if_pos other] at h
    cases h

/-- A value in double quotes is what stands between them, decoded. -/
theorem value_eq_of_attr? {attr : Attr} {more : List Char} (h : attr? text = some (attr, rest))
    (place : valueFrom text = '"' :: (raw ++ '"' :: more)) (closed : '"' ∉ raw) :
    decoded? true raw = some attr.value := by
  simp only [attr?, Option.bind_eq_bind, Option.bind_eq_some_iff] at h
  obtain ⟨⟨name, after⟩, read, eq⟩ := h
  obtain rfl := name?_rest read
  dsimp only at eq
  split at eq
  next inner found =>
    simp only [Option.bind_eq_some_iff] at eq
    obtain ⟨⟨value, _⟩, isValue, eq⟩ := eq
    obtain ⟨rfl, _⟩ := Prod.mk.inj (Option.some.inj eq)
    rw [valueFrom_of_equals found] at place
    rw [place, value?] at isValue
    exact quotedValue?_append closed isValue
  next notEquals =>
    -- without a value, a name would start with the quote
    rw [valueFrom_of_no_equals notEquals] at place
    rw [place] at read
    simp [name?, nameText?, isNameByte, isName] at read

/-- A value in double quotes, without references and carriage returns, is read as it is written. -/
theorem value_eq_of_mem_attrsFrom {fuel : Nat} {a : PlacedAttr} (mem : a ∈ attrsFrom fuel text)
    (written : a.WrittenAs raw) (noReturn : '\r' ∉ raw) : a.attr.value.toList = raw := by
  induction fuel generalizing text with
  | zero => cases mem
  | succ fuel ih =>
    simp only [attrsFrom] at mem
    split at mem
    next attr rest read =>
      rcases List.mem_cons.1 mem with rfl | mem
      · obtain ⟨closed, noReference, more, place⟩ := written
        have decoded := value_eq_of_attr? read place closed
        simp only [decoded?, decodeFrom_eq_self noReturn noReference] at decoded
        split at decoded
        · rw [← Option.some.inj decoded, String.toList_ofList]
        · cases decoded
      · exact ih mem
    next => cases mem

end

/-! Lines -/

/-- The line on which a last part of a text starts. -/
def lineAt (source place : List Char) : Nat := lineAfter (Php.textBefore source place)

theorem lineAt_append (before place : List Char) : lineAt (before ++ place) place = lineAfter before := by
  simp [lineAt, Php.textBefore]

theorem lineAt_mono {source place later : List Char} (inSource : place <:+ source) (after : later <:+ place) :
    lineAt source place ≤ lineAt source later := by
  obtain ⟨between, rfl⟩ := after
  obtain ⟨before, rfl⟩ := inSource
  rw [lineAt_append, ← List.append_assoc, lineAt_append, lineAfter, lineAfter, List.count_append]
  omega

end ShopLint.Xml
