import ShopLint.Fingerprint
import ShopLint.Proofs.Text.Lines

/-!
Fingerprints: lines of a file that can be read always have one. Joining a carriage return with the
newline after it changes no line's number, so the lines of the file are those of the fingerprint.
-/

namespace ShopLint

theorem Chars.replaceAll_of_not_prefix {old new text : List Char} {c : Char} (h : ¬old <+: c :: text) :
    replaceAll old new (c :: text) = c :: replaceAll old new text := by
  rw [replaceAll, replaceFrom, if_neg (by simpa using h), replaceAll]

namespace Fingerprint

/-- Two texts that differ only in which of their newlines have a carriage return before them. -/
inductive SameButEndings : List Char → List Char → Prop
  | nil : SameButEndings [] []
  | char (c : Char) {a b : List Char} : SameButEndings a b → SameButEndings (c :: a) (c :: b)
  | returned {a b : List Char} : SameButEndings a b → SameButEndings ('\n' :: a) ('\r' :: '\n' :: b)
  | plain {a b : List Char} : SameButEndings a b → SameButEndings ('\r' :: '\n' :: a) ('\n' :: b)

/-- Joining each carriage return with the newline after it changes nothing but line endings. -/
theorem sameButEndings_joined (content : List Char) :
    SameButEndings content (Chars.replaceAll ['\r', '\n'] ['\n'] content) := by
  induction length : content.length using Nat.strongRecOn generalizing content with
  | ind size ih =>
    cases content with
    | nil => exact .nil
    | cons c cs =>
      by_cases ending : ['\r', '\n'] <+: c :: cs
      · obtain ⟨rest, eq⟩ := ending
        rw [List.cons_append, List.cons_append, List.nil_append, List.cons.injEq] at eq
        obtain ⟨rfl, rfl⟩ := eq
        exact .plain (ih rest.length (by rw [← length]; simp only [List.length_cons]; omega) rest rfl)
      · rw [Chars.replaceAll_of_not_prefix ending]
        exact .char c (ih cs.length (by rw [← length]; exact Nat.lt_succ_self _) cs rfl)

theorem SameButEndings.count_newline {a b : List Char} (h : SameButEndings a b) :
    a.count '\n' = b.count '\n' := by
  induction h with
  | nil => rfl
  | char c _ ih => rw [List.count_cons, List.count_cons, ih]
  | returned _ ih => simp [ih]
  | plain _ ih => simp [ih]

theorem length_lines (content : List Char) : (lines content).length = (linesOf content).length := by
  rw [lines, length_linesOf, length_linesOf, (sameButEndings_joined content).count_newline]

theorem hexDigits_ne_nil (width n : Nat) : Text.hexDigits (width + 1) n ≠ [] := by
  simp [Text.hexDigits]

theorem sha256_ne_empty (text : String) : Digest.sha256 text ≠ "" := by
  intro empty
  have noDigits := congrArg String.toList empty
  simp only [Digest.sha256, String.toList_ofList, Digest.State.words, List.flatMap_cons,
    String.toList_empty, List.append_eq_nil_iff] at noDigits
  exact hexDigits_ne_nil 7 _ noDigits.1

theorem hash_ne_empty {content : List Char} {line : Int} (endLine : Int) (positive : 1 ≤ line)
    (within : line ≤ (linesOf content).length) : hash content line endLine ≠ "" := by
  have inRange : ¬(line < 1 || ((lines content).length : Int) < line) := by
    simp only [length_lines, Bool.or_eq_true, decide_eq_true_eq, not_or]
    omega
  simp only [hash, snippet, if_neg inRange]
  exact sha256_ne_empty _

theorem ofFile_ne_empty {host : Host} {path content : String} {line : Int} (endLine : Int)
    (named : Text.trim path ≠ "") (readable : host.read path = .ok content) (positive : 1 ≤ line)
    (within : line ≤ (linesOf content.toList).length) : ofFile host path line endLine ≠ "" := by
  have asked : ¬(Text.trim path = "" || line ≤ 0) := by
    simp only [Bool.or_eq_true, decide_eq_true_eq, not_or]
    exact ⟨named, by omega⟩
  simp only [ofFile, if_neg asked, readable]
  exact hash_ne_empty endLine positive within

end Fingerprint

end ShopLint
