import ShopLint.Text.Case
import ShopLint.Text.Classes

/-!
Regular expressions and where they match. A search keeps the set of what is left to be matched, so
that its time does not depend on the shape of the expression.
-/

namespace ShopLint

/-- Code points in one of some ranges, ends included, or in none of them. -/
structure CharClass where
  ranges : List (Nat × Nat)
  negated : Bool := false
  deriving DecidableEq, Repr

/-- The union of some classes, or its complement. With `anyCase` letters stand for their other cases
too. -/
structure CharSet where
  classes : List CharClass
  negated : Bool := false
  anyCase : Bool := false
  deriving DecidableEq, Repr

def inRanges (ranges : List (Nat × Nat)) (code : Nat) : Bool :=
  ranges.any fun r => r.1 ≤ code && code ≤ r.2

/-- The character and, if asked for, its forms in other cases. -/
def caseForms (anyCase : Bool) (c : Char) : List Nat :=
  if anyCase then
    let single :=
      match LetterCase.titleChar c with
      | [t] => [t.toNat]
      | _ => []
    [c.toNat, (LetterCase.lowerChar c).toNat, (LetterCase.foldChar c).toNat] ++ single ++
      (if LetterCase.foldChar c = 'k' then [0x212a] else []) ++
      (if LetterCase.foldChar c = 's' then [0x17f] else [])
  else [c.toNat]

def CharSet.contains (s : CharSet) (c : Char) : Bool :=
  (s.classes.any fun k => (caseForms s.anyCase c).any (inRanges k.ranges) != k.negated) != s.negated

/-- Conditions on a place in a text. -/
inductive Assertion
  | textStart
  | textEnd
  | lineStart
  | lineEnd
  | wordEdge
  | noWordEdge
  deriving DecidableEq, Repr

/-- The place between two characters, if there are such, meets the condition. -/
def Assertion.holds (prev next : Option Char) : Assertion → Bool
  | textStart => prev.isNone
  | textEnd => next.isNone
  | lineStart => prev.isNone || prev = some '\n'
  | lineEnd => next.isNone || next = some '\n'
  | wordEdge => prev.any isWord != next.any isWord
  | noWordEdge => prev.any isWord == next.any isWord

inductive Pattern
  | nothing
  | one (set : CharSet)
  | condition (a : Assertion)
  | seq (first second : Pattern)
  | either (left right : Pattern)
  | many (p : Pattern)
  deriving DecidableEq, Repr

namespace Pattern

/-- The pattern matches no characters at all at a place. -/
def matchesEmpty (prev next : Option Char) : Pattern → Bool
  | nothing => true
  | one _ => false
  | condition a => a.holds prev next
  | seq p q => p.matchesEmpty prev next && q.matchesEmpty prev next
  | either p q => p.matchesEmpty prev next || q.matchesEmpty prev next
  | many _ => true

/-- What may be left to match after the character `c`, which follows `prev`. -/
def after (prev : Option Char) (c : Char) : Pattern → List Pattern
  | nothing => []
  | one set => if set.contains c then [nothing] else []
  | condition _ => []
  | seq p q =>
    (p.after prev c).map (fun r => if r = nothing then q else seq r q) ++
      (if p.matchesEmpty prev (some c) then q.after prev c else [])
  | either p q => p.after prev c ++ q.after prev c
  | many p => (p.after prev c).map fun r => if r = nothing then many p else seq r (many p)

/-- The pattern, or one of those `pending` from earlier places, matches from here on. -/
def searchFrom (p : Pattern) (pending : List Pattern) (prev : Option Char) : List Char → Bool
  | [] => (p :: pending).any (matchesEmpty prev none)
  | c :: cs =>
    (p :: pending).any (matchesEmpty prev (some c)) ||
      searchFrom p ((p :: pending).flatMap (after prev c)).eraseDups (some c) cs

/-- The pattern matches some stretch of the text. -/
def occursIn (p : Pattern) (text : List Char) : Bool := p.searchFrom [] none text

/-- Between `least` and `least + more` times. -/
def times (p : Pattern) (least more : Nat) : Pattern :=
  match least, more with
  | 0, 0 => nothing
  | 0, more + 1 => either nothing (seq p (times p 0 more))
  | least + 1, more => seq p (times p least more)

def atLeast (p : Pattern) (least : Nat) : Pattern :=
  match least with
  | 0 => many p
  | least + 1 => seq p (atLeast p least)

end Pattern

end ShopLint
