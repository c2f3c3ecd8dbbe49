import ShopLint.Proofs.Relocation.Rules
import ShopLint.Proofs.Text.Search

/-!
Places that tell the rules nothing. Rules go by the names of directories on the whole way to a file.
When no name above the tree is one of those, and the two names right above it are the same, the files
of the tree look alike at both places.
-/

namespace ShopLint

namespace Chars

/-- A piece of text between separators is not found earlier because of what stands in front, when
that has no piece like its first. -/
theorem contains_between {sep : Char} {front rest between : List Char}
    (h : ∀ piece, (splitOn sep between).head? = some piece → piece ∉ splitOn sep front) :
    contains (sep :: (between ++ [sep])) (front ++ sep :: rest) =
      contains (sep :: (between ++ [sep])) (sep :: rest) := by
  rw [Bool.eq_iff_iff, contains_iff, contains_iff]
  constructor
  · rintro ⟨before, after, eq⟩
    rw [List.append_assoc] at eq
    rcases List.append_eq_append_iff.1 eq with ⟨more, before_eq, found⟩ | ⟨more, front_eq, found⟩
    · exact ⟨more, after, by simpa using found⟩
    · cases more with
      | nil => exact ⟨[], after, by simpa using found.symm⟩
      | cons c more =>
        -- the piece would start within `front`
        simp only [List.cons_append, List.cons.injEq, List.append_assoc] at found
        obtain ⟨rfl, inside⟩ := found
        have heads := congrArg (fun text => (splitOn sep text).head?) inside
        simp only [List.nil_append, splitOn_append,
          List.head?_append_of_ne_nil _ (splitOn_ne_nil _ _)] at heads
        cases pieces : splitOn sep more with
        | nil => exact absurd pieces (splitOn_ne_nil _ _)
        | cons piece pieces' =>
          rw [pieces] at heads
          refine absurd ?_ (h piece heads)
          rw [front_eq, splitOn_append, pieces]
          exact List.mem_append_right _ List.mem_cons_self
  · rintro ⟨before, after, eq⟩
    exact ⟨front ++ before, after, by rw [eq]; simp⟩

end Chars

theorem Text.contains_between {front between : String}
    (h : ∀ piece, (Path.segments between).head? = some piece → piece ∉ Path.segments front)
    (rest : String) :
    Text.contains (front ++ "/" ++ rest) ("/" ++ between ++ "/") =
      Text.contains ("/" ++ rest) ("/" ++ between ++ "/") := by
  have apart := @Chars.contains_between '/' front.toList rest.toList between.toList ?_
  · simpa [Text.contains] using apart
  · intro piece isHead inFront
    apply h (String.ofList piece)
    · simp [Path.segments, Text.splitOn, isHead]
    · exact List.mem_map_of_mem inFront

namespace Module

/-! Segments in front that say nothing about a module -/

theorem underAppCode_append {front : List String} (h : "app" ∉ front) (rest : List String) :
    underAppCode (front ++ rest) = underAppCode rest := by
  induction front with
  | nil => rfl
  | cons s front ih =>
    obtain ⟨ne, others⟩ := not_or.1 fun mem => h (List.mem_cons.2 mem)
    rw [← ih others, List.cons_append, underAppCode]
    exact fun _ _ _ _ eq _ => ne eq.symm

theorem underVendor_append {front : List String} (h : "vendor" ∉ front) (rest : List String) :
    underVendor (front ++ rest) = underVendor rest := by
  induction front with
  | nil => rfl
  | cons s front ih =>
    obtain ⟨ne, others⟩ := not_or.1 fun mem => h (List.mem_cons.2 mem)
    rw [← ih others, List.cons_append, underVendor]
    exact fun _ _ _ _ eq _ => ne eq.symm

theorem aboveLayer_append {front : List String} (h : ∀ s ∈ front, s ∉ layerDirs)
    (above rest : List String) :
    aboveLayer above (front ++ rest) = aboveLayer (front.reverse ++ above) rest := by
  induction front generalizing above with
  | nil => rfl
  | cons s front ih =>
    have later := ih (fun t mem => h t (List.mem_cons_of_mem _ mem)) (s :: above)
    simp only [List.cons_append, aboveLayer, if_neg (h s List.mem_cons_self), later]
    simp

/-- Only the two segments passed last matter. -/
theorem aboveLayer_congr {above above' : List String} (h : above.take 2 = above'.take 2)
    (rest : List String) : aboveLayer above rest = aboveLayer above' rest := by
  induction rest generalizing above above' with
  | nil => rfl
  | cons s rest ih =>
    have next : (s :: above).take 2 = (s :: above').take 2 := by
      have one := congrArg (List.take 1) h
      simpa [List.take_take] using one
    simp only [aboveLayer, ih next]
    rcases above with _ | ⟨a, _ | ⟨b, as⟩⟩ <;> rcases above' with _ | ⟨a', _ | ⟨b', as'⟩⟩ <;> simp_all

end Module

namespace Path

/-- The names of directories that rules go by, those of setup scripts apart. -/
def tellingNames : List String := ["app", "vendor", "etc", "Plugin", "layout"] ++ Module.layerDirs

/-- Both places have none of these names above the tree, and the same two names right above it. -/
structure Plain (root₁ root₂ : String) : Prop where
  first : ∀ s ∈ segments (stem root₁), s ∉ tellingNames
  second : ∀ s ∈ segments (stem root₂), s ∉ tellingNames
  ends : (segments (stem root₁)).reverse.take 2 = (segments (stem root₂)).reverse.take 2

/-- No directory above the tree has the name of those that hold setup scripts. -/
def OutsideSetup (root : String) : Prop := ∀ s ∈ segments (stem root), s ≠ "Setup" ∧ s ≠ "setup"

instance (root : String) : Decidable (OutsideSetup root) := inferInstanceAs (Decidable (∀ s ∈ _, _))

section

variable {root : String} {names : List String} (nonempty : names ≠ []) (proper : ∀ n ∈ names, IsProper n)

include nonempty proper

theorem hasDirectory_below {name : String} (absent : name ∉ segments (stem root)) :
    Module.hasDirectory (below root names) name = decide (name ∈ names.dropLast) := by
  simp only [Module.hasDirectory, segments_below root nonempty proper,
    List.dropLast_append_of_ne_nil nonempty, List.mem_append, absent, false_or]

theorem isSetupPath_below (outside : OutsideSetup root) : Module.isSetupPath (below root names) =
    (decide ("Setup" ∈ names.dropLast) || decide ("setup" ∈ names.dropLast)) := by
  rw [Module.isSetupPath, hasDirectory_below nonempty proper fun mem => (outside _ mem).1 rfl,
    hasDirectory_below nonempty proper fun mem => (outside _ mem).2 rfl]

end

section

variable {root : String} (plain : ∀ s ∈ segments (stem root), s ∉ tellingNames) {names : List String}
  (nonempty : names ≠ []) (proper : ∀ n ∈ names, IsProper n)

include plain nonempty proper

theorem contains_below {name : String} (telling : name ∈ tellingNames) {between : String}
    (starts : (segments between).head? = some name) :
    Text.contains (below root names) ("/" ++ between ++ "/") =
      Text.contains ("/" ++ Text.join "/" names) ("/" ++ between ++ "/") := by
  rw [below_eq_join root nonempty proper]
  apply Text.contains_between
  rintro piece isHead inStem
  rw [starts, Option.some.injEq] at isHead
  exact plain piece inStem (isHead ▸ telling)

theorem ofPath_below :
    Area.ofPath (below root names) = Area.ofPath ("/" ++ Text.join "/" names) := by
  have each (area : Area) : Text.contains (below root names) area.segment =
      Text.contains ("/" ++ Text.join "/" names) area.segment := by
    have starts : (segments ("etc/" ++ area.name)).head? = some "etc" := by
      cases area <;> decide
    have segment : area.segment = "/" ++ ("etc/" ++ area.name) ++ "/" := by
      cases area <;> decide
    rw [segment]
    exact contains_below plain nonempty proper (by decide) starts
  simp only [Area.ofPath, each]

theorem underAppCode_below : Module.underAppCode (segments (below root names)) =
    Module.underAppCode names := by
  rw [segments_below root nonempty proper]
  exact Module.underAppCode_append (fun mem => plain _ mem (by decide)) names

theorem underVendor_below : Module.underVendor (segments (below root names)) =
    Module.underVendor names := by
  rw [segments_below root nonempty proper]
  exact Module.underVendor_append (fun mem => plain _ mem (by decide)) names

theorem aboveLayer_below : Module.aboveLayer [] (segments (below root names)) =
    Module.aboveLayer (segments (stem root)).reverse names := by
  rw [segments_below root nonempty proper, Module.aboveLayer_append, List.append_nil]
  exact fun s mem layer => plain s mem (List.mem_append_right _ layer)

end

/-- From plain places the files of a tree look alike. -/
theorem Plain.alike {root₁ root₂ : String} (h : Plain root₁ root₂) {names : List String}
    (nonempty : names ≠ []) (proper : ∀ n ∈ names, IsProper n) :
    Alike (below root₁ names) (below root₂ names) := by
  have directory {name : String} (telling : name ∈ tellingNames) :
      Module.hasDirectory (below root₁ names) name = Module.hasDirectory (below root₂ names) name := by
    rw [hasDirectory_below nonempty proper fun mem => h.first name mem telling,
      hasDirectory_below nonempty proper fun mem => h.second name mem telling]
  have between {name : String} (telling : name ∈ tellingNames)
      (isName : (segments name).head? = some name) :
      Text.contains (below root₁ names) ("/" ++ name ++ "/") =
        Text.contains (below root₂ names) ("/" ++ name ++ "/") := by
    rw [contains_below h.first nonempty proper telling isName,
      contains_below h.second nonempty proper telling isName]
  constructor
  · rw [show "/Plugin/" = "/" ++ "Plugin" ++ "/" by decide]
    exact between (by decide) (by decide)
  · rw [show "/layout/" = "/" ++ "layout" ++ "/" by decide]
    exact between (by decide) (by decide)
  · exact directory (by decide)
  · rw [ofPath_below h.first nonempty proper, ofPath_below h.second nonempty proper]
  · simp only [Module.nameOf?, underAppCode_below h.first nonempty proper,
      underAppCode_below h.second nonempty proper, underVendor_below h.first nonempty proper,
      underVendor_below h.second nonempty proper, aboveLayer_below h.first nonempty proper,
      aboveLayer_below h.second nonempty proper, Module.aboveLayer_congr h.ends]

end Path

end ShopLint
