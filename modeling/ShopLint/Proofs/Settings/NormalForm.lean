import ShopLint.Proofs.Collection.Eligibility
import ShopLint.Proofs.Text.Case
import ShopLint.Proofs.Text.Search
import ShopLint.Proofs.Text.Trim
import ShopLint.Settings.Validation
import Mathlib.Data.List.MinMax

/-!
Settings that were checked once, checked again. One dot is taken off an extension, and what follows it
is not looked at; slashes are taken off the end of a host after it got its scheme. So what comes out is
in normal form just if no extension has another dot or white space after its first dot, and every host
that counts has something other than slashes after its scheme.
-/

namespace ShopLint

namespace Text

/-- One dot is dropped where a text starts with it. -/
theorem dropStart_dot_cases (text : String) :
    (text.toList.head? ≠ some '.' ∧ dropStart "." text = text) ∨
    ∃ rest, text.toList = '.' :: rest ∧ dropStart "." text = String.ofList rest := by
  rw [dropStart]
  cases found : Chars.after? ".".toList text.toList with
  | some rest => exact .inr ⟨rest, Chars.after?_eq_some.1 found, rfl⟩
  | none =>
    refine .inl ⟨fun first => ?_, rfl⟩
    obtain ⟨rest, eq⟩ := List.head?_eq_some_iff.1 first
    rw [Chars.after?_eq_some.2 (show text.toList = ".".toList ++ rest from eq)] at found
    cases found

theorem length_dropStart_dot_lt {text : String} {rest : List Char} (h : text.toList = '.' :: rest) :
    (String.ofList rest).length < text.length := by
  rw [← String.length_toList, ← String.length_toList, h, String.toList_ofList]
  exact Nat.lt_succ_self _

end Text

namespace LetterCase

theorem lower_above_dot : CaseTable.lower.all (fun r => Nat.blt '.'.toNat r.imageLo) = true := by
  decide +kernel

/-- A dot has no case, and is the lower case of nothing else. -/
theorem lowerChar_eq_dot_iff {c : Char} : lowerChar c = '.' ↔ c = '.' := by
  constructor
  · intro dot
    rcases lowerChar_cases c with fixed | ⟨r, mem, holds, valid, image⟩
    · rw [← fixed, dot]
    · have above := List.all_eq_true.1 lower_above_dot r mem
      have code := congrArg Char.toNat (dot.symm.trans image)
      rw [toNat_ofNat valid] at code
      rw [Nat.blt_eq] at above
      have bounds := holds.image_bounds
      omega
  · rintro rfl
    decide +kernel

end LetterCase

namespace Settings

/-! Extensions -/

/-- What follows the dot of an extension, if it starts with one, is neither another dot nor white space. -/
def IsPlainExtension (ext : String) : Prop :=
  ∀ c rest, (Text.trim ext).toList = '.' :: c :: rest → c ≠ '.' ∧ isBlank c = false

theorem dropStart_trim_eq_self_iff {ext : String} : Text.dropStart "." (Text.trim ext) = ext ↔
    Text.trim ext = ext ∧ ext.toList.head? ≠ some '.' := by
  have trimmed := Text.length_trim_le ext
  rcases Text.dropStart_dot_cases (Text.trim ext) with ⟨first, kept⟩ | ⟨rest, split, dropped⟩
  · rw [kept]
    exact ⟨fun same => ⟨same, same ▸ first⟩, And.left⟩
  · have shorter := Text.length_dropStart_dot_lt split
    rw [dropped]
    constructor
    · rintro rfl
      omega
    · rintro ⟨same, first⟩
      rw [same] at split
      exact absurd (by rw [split]; rfl) first

/-- Normal form takes something off an extension or changes nothing but its case. -/
theorem dropStart_trim_cases (ext : String) : Text.dropStart "." (Text.trim ext) = ext ∨
    (Text.dropStart "." (Text.trim ext)).length < ext.length := by
  have trimmed := Text.length_trim_le ext
  rcases Text.dropStart_dot_cases (Text.trim ext) with ⟨_, kept⟩ | ⟨rest, split, dropped⟩
  · rw [kept]
    rcases Nat.lt_or_eq_of_le trimmed with shorter | same
    · exact .inr shorter
    · exact .inl (Text.trim_eq_of_length same)
  · have shorter := Text.length_dropStart_dot_lt split
    exact .inr (by rw [dropped]; omega)

section

variable {ext : String} (lower : Text.toLower ext = ext)

include lower

theorem normalizeExtension_cases :
    normalizeExtension ext = ext ∨ (normalizeExtension ext).length < ext.length := by
  rw [normalizeExtension, Text.length_toLower]
  exact (dropStart_trim_cases ext).imp_left fun same => by rw [same, lower]

theorem normalizeExtension_eq_self_iff :
    normalizeExtension ext = ext ↔ Text.trim ext = ext ∧ ext.toList.head? ≠ some '.' := by
  rw [← dropStart_trim_eq_self_iff, normalizeExtension]
  constructor
  · intro same
    have lengths := congrArg String.length same
    rw [Text.length_toLower] at lengths
    exact (dropStart_trim_cases ext).resolve_right (by omega)
  · intro same
    rw [same, lower]

end

theorem toLower_normalizeExtension (ext : String) :
    Text.toLower (normalizeExtension ext) = normalizeExtension ext := Text.toLower_toLower _

theorem head?_toLower_eq_dot_iff {text : String} :
    (Text.toLower text).toList.head? = some '.' ↔ text.toList.head? = some '.' := by
  simp [Text.toLower, LetterCase.lowerChar_eq_dot_iff]

/-- Trimming an extension again after its first dot is dropped, and dropping a dot again, changes nothing
just if the extension is plain. -/
theorem dropStart_trim_settled_iff {ext : String} :
    (Text.trim (Text.dropStart "." (Text.trim ext)) = Text.dropStart "." (Text.trim ext) ∧
      (Text.dropStart "." (Text.trim ext)).toList.head? ≠ some '.') ↔ IsPlainExtension ext := by
  rcases Text.dropStart_dot_cases (Text.trim ext) with ⟨first, kept⟩ | ⟨rest, split, dropped⟩
  · rw [kept]
    refine ⟨fun _ c rest split => ?_, fun _ => ⟨Text.trim_trim ext, first⟩⟩
    exact absurd (by rw [split]; rfl) first
  · rw [dropped]
    cases rest with
    | nil =>
      have blank : Text.trim (String.ofList []) = String.ofList [] := by decide
      refine ⟨fun _ c rest split' => ?_, fun _ => ⟨blank, by simp⟩⟩
      rw [split] at split'
      cases split'
    | cons c rest =>
      have last : ∀ d, (c :: rest).getLast? = some d → isBlank d = false := by
        have trimmed := Text.toList_trim (Text.trim ext)
        rw [Text.trim_trim, split] at trimmed
        simpa using (Chars.trimWhile_eq_self_iff.1 trimmed.symm).2
      have trimmed : Text.trim (String.ofList (c :: rest)) = String.ofList (c :: rest) ↔ isBlank c = false := by
        rw [← String.toList_inj, Text.toList_trim, String.toList_ofList, Chars.trimWhile_eq_self_iff]
        exact ⟨fun ends => ends.1 c rfl, fun start => ⟨fun d first => Option.some.inj first ▸ start, last⟩⟩
      rw [trimmed]
      simp only [String.toList_ofList, List.head?_cons, ne_eq, Option.some.injEq]
      constructor
      · rintro ⟨start, other⟩ d more split'
        rw [split] at split'
        obtain ⟨rfl, rfl⟩ := List.cons.inj (List.cons.inj split').2
        exact ⟨other, start⟩
      · intro plain
        exact (plain c rest split).symm

/-- The normal form of an extension is in normal form just if the extension is plain. -/
theorem normalizeExtension_again_iff {ext : String} :
    normalizeExtension (normalizeExtension ext) = normalizeExtension ext ↔ IsPlainExtension ext := by
  rw [normalizeExtension_eq_self_iff (toLower_normalizeExtension ext), ← dropStart_trim_settled_iff]
  simp only [ne_eq, normalizeExtension, Text.trim_toLower, Text.toLower_trim_eq_iff,
    head?_toLower_eq_dot_iff]

/-! Hosts -/

/-- The host with its scheme, which is plain when none is given. -/
def withScheme (host : String) : String :=
  if Text.contains host "://" then host else "http://" ++ host

/-- Something other than slashes stands after the scheme. -/
def NamesHost (host : String) : Prop :=
  ∃ scheme rest, (withScheme host).toList = scheme ++ "://".toList ++ rest ∧ ∃ c ∈ rest, c ≠ '/'

theorem toList_normalHost (host : String) :
    (normalHost host).toList = Chars.dropRightWhile (· = '/') (withScheme host).toList := by
  rw [normalHost, Text.trimEndChar, String.toList_ofList]
  rfl

theorem exists_scheme (host : String) :
    ∃ scheme rest, (withScheme host).toList = scheme ++ "://".toList ++ rest := by
  rw [withScheme]
  split
  next given => exact Chars.contains_iff.1 given
  next => exact ⟨"http".toList, host.toList, by simp⟩

theorem colon_mem_normalHost (host : String) : ':' ∈ (normalHost host).toList := by
  obtain ⟨scheme, rest, split⟩ := exists_scheme host
  have colon : scheme ++ "://".toList ++ rest = scheme ++ ':' :: ("//".toList ++ rest) := by simp
  rw [toList_normalHost, split, colon, Chars.dropRightWhile_append_cons (by decide)]
  simp

theorem normalHost_ne_empty (host : String) : normalHost host ≠ "" := by
  intro empty
  have colon := colon_mem_normalHost host
  rw [empty] at colon
  cases colon

/-- The scheme is left with its slashes just if more than slashes follows. -/
theorem contains_normalHost_iff {host : String} :
    Text.contains (normalHost host) "://" ↔ NamesHost host := by
  rw [Text.contains, Chars.contains_iff, toList_normalHost]
  constructor
  · rintro ⟨scheme, rest, eq⟩
    obtain ⟨slashes, split, _⟩ := Chars.exists_dropRightWhile (· = '/') (withScheme host).toList
    refine ⟨scheme, rest ++ slashes, by rw [split, eq, List.append_assoc], ?_⟩
    by_contra none
    push Not at none
    -- then the slashes of the scheme would have been dropped too
    have dropped : ∀ c ∈ '/' :: '/' :: rest, decide (c = '/') = true := by
      intro c mem
      simp only [List.mem_cons] at mem
      rcases mem with rfl | rfl | tail
      · rfl
      · rfl
      · exact decide_eq_true (none c (List.mem_append_left _ tail))
    have again : Chars.dropRightWhile (· = '/') (scheme ++ "://".toList ++ rest) =
        scheme ++ "://".toList ++ rest := by
      rw [← eq]
      exact List.rdropWhile_idempotent _ _
    have colon : scheme ++ "://".toList ++ rest = scheme ++ [':'] ++ '/' :: '/' :: rest := by simp
    rw [colon, Chars.dropRightWhile_append dropped, Chars.dropRightWhile_append_cons (by decide)] at again
    have lengths := congrArg List.length again
    simp only [List.length_append, List.length_cons, Chars.dropRightWhile, List.reverse_nil, List.dropWhile_nil,
      List.length_nil] at lengths
    omega
  · rintro ⟨scheme, rest, split, c, mem, ne⟩
    obtain ⟨front, back, rfl⟩ := List.append_of_mem mem
    have regrouped : scheme ++ "://".toList ++ (front ++ c :: back) =
        scheme ++ "://".toList ++ front ++ c :: back := by simp
    rw [split, regrouped, Chars.dropRightWhile_append_cons (by simpa using ne)]
    exact ⟨scheme, _, by rw [List.append_assoc (scheme ++ "://".toList)]⟩

theorem normalHost_of_contains {host : String} (h : Text.contains (normalHost host) "://") :
    normalHost (normalHost host) = normalHost host := by
  rw [← String.toList_inj, toList_normalHost (normalHost host), withScheme, if_pos h, toList_normalHost]
  exact List.rdropWhile_idempotent _ _

/-- A host in normal form is left alone just if it names a host. -/
theorem normalHost_again_iff {host : String} :
    normalHost (normalHost host) = normalHost host ↔ NamesHost host := by
  rw [← contains_normalHost_iff]
  refine ⟨fun same => ?_, normalHost_of_contains⟩
  by_contra lost
  -- it would get a scheme, and keep it before its colon
  have named : NamesHost (normalHost host) := by
    refine ⟨"http".toList, (normalHost host).toList, ?_, ':', colon_mem_normalHost host, by decide⟩
    rw [withScheme, if_neg lost]
    simp
  rw [← contains_normalHost_iff, same] at named
  exact lost named

/-! Sections -/

/-- A proxy whose host is brought into normal form. -/
def ProxyCounts (p : ProxySettings) : Prop := p.host ≠ "" ∧ p.port ≠ 0

theorem validateProxy_of_not_counts {p : ProxySettings} (h : ¬ProxyCounts p) : validateProxy p = (p, none) := by
  rw [validateProxy, if_pos]
  simp only [ProxyCounts, ne_eq, not_and_or, not_not] at h
  simpa using h

theorem validateProxy_eq_iff {p q : ProxySettings} (h : ProxyCounts p) : validateProxy p = (q, none) ↔
    q = { p with host := normalHost p.host } ∧ checkHost q.host = none ∧
      ¬(p.port < 1 || maxPort < p.port) := by
  have counts : ¬(p.host = "" || p.port = 0) := by simpa [ProxyCounts] using h
  rw [validateProxy, if_neg counts]
  dsimp only
  constructor
  · intro valid
    split at valid
    next => simp at valid
    next checked =>
      obtain ⟨rfl, fits⟩ := Prod.mk.inj valid
      refine ⟨rfl, checked, ?_⟩
      split at fits
      next => cases fits
      next inside => exact inside
  · rintro ⟨rfl, checked, inside⟩
    simp only [checked, if_neg inside]

theorem validateProxy_again_iff {p q : ProxySettings} (valid : validateProxy p = (q, none)) :
    validateProxy q = (q, none) ↔ (ProxyCounts p → NamesHost p.host) := by
  by_cases counts : ProxyCounts p
  · obtain ⟨rfl, checked, inside⟩ := (validateProxy_eq_iff counts).1 valid
    have counts' : ProxyCounts { p with host := normalHost p.host } := ⟨normalHost_ne_empty _, counts.2⟩
    rw [validateProxy_eq_iff counts', ← normalHost_again_iff]
    constructor
    · rintro ⟨same, _⟩ _
      exact (congrArg ProxySettings.host same).symm
    · intro same
      exact ⟨by rw [same counts], checked, inside⟩
  · rw [validateProxy_of_not_counts counts] at valid
    obtain ⟨rfl, _⟩ := Prod.mk.inj valid
    simp [validateProxy_of_not_counts counts, counts]

theorem validateHttp_eq_iff {s t : HttpSettings} : validateHttp s = (t, none) ↔
    ¬(s.retryCount < 0 || maxRetries < s.retryCount) ∧ checkTimes s = none ∧
      validateProxy s.proxy = (t.proxy, none) ∧ t = { s with proxy := t.proxy } := by
  rw [validateHttp]
  constructor
  · intro valid
    split at valid
    next => simp at valid
    next fits =>
      split at valid
      next => simp at valid
      next times =>
        rcases checked : validateProxy s.proxy with ⟨proxy, fault⟩
        rw [checked] at valid
        obtain ⟨rfl, rfl⟩ := Prod.mk.inj valid
        exact ⟨fits, times, rfl, rfl⟩
  · rintro ⟨fits, times, checked, same⟩
    rw [if_neg fits, times, checked]
    exact congrArg (·, none) same.symm

theorem validateHttp_again_iff {s t : HttpSettings} (valid : validateHttp s = (t, none)) :
    validateHttp t = (t, none) ↔ (ProxyCounts s.proxy → NamesHost s.proxy.host) := by
  obtain ⟨fits, times, checked, same⟩ := validateHttp_eq_iff.1 valid
  obtain ⟨proxy, rfl⟩ : ∃ proxy, t = { s with proxy := proxy } := ⟨_, same⟩
  rw [← validateProxy_again_iff checked, validateHttp_eq_iff]
  exact ⟨fun h => h.2.2.1, fun h => ⟨fits, times, h, rfl⟩⟩

theorem validateExtensions_eq_iff {position : Nat} {exts normal : List String} :
    validateExtensions position exts = (normal, none) ↔
      normal = exts.map normalizeExtension ∧ "" ∉ normal := by
  induction exts generalizing position normal with
  | nil =>
    simp only [validateExtensions, Prod.mk.injEq, and_true, List.map_nil]
    constructor
    · rintro rfl
      exact ⟨rfl, List.not_mem_nil⟩
    · rintro ⟨rfl, _⟩
      rfl
  | cons ext rest ih =>
    rw [validateExtensions]
    split
    next empty =>
      constructor
      · intro valid
        simp at valid
      · rintro ⟨rfl, nonempty⟩
        exact absurd (by rw [List.map_cons, empty]; exact List.mem_cons_self) nonempty
    next nonempty =>
      rcases later : validateExtensions (position + 1) rest with ⟨others, fault⟩
      constructor
      · intro valid
        obtain ⟨rfl, rfl⟩ := Prod.mk.inj valid
        obtain ⟨rfl, absent⟩ := ih.1 later
        exact ⟨rfl, by simpa [Ne.symm nonempty] using absent⟩
      · rintro ⟨rfl, absent⟩
        rw [List.map_cons, List.mem_cons, not_or] at absent
        rw [ih.2 ⟨rfl, absent.2⟩] at later
        obtain ⟨rfl, rfl⟩ := Prod.mk.inj later
        rfl

theorem validateScan_eq_iff {s t : ScanSettings} : validateScan s = (t, none) ↔
    t = { s with extensions := s.extensions.map normalizeExtension } ∧ "" ∉ t.extensions ∧
      s.excludeDirs.find? isPathLike = none := by
  rw [validateScan]
  rcases checked : validateExtensions 1 s.extensions with ⟨extensions, fault⟩
  constructor
  · intro valid
    obtain ⟨rfl, faults⟩ := Prod.mk.inj valid
    rw [Option.or_eq_none_iff, Option.map_eq_none_iff] at faults
    obtain ⟨rfl, dirs⟩ := faults
    obtain ⟨rfl, nonempty⟩ := validateExtensions_eq_iff.1 checked
    exact ⟨rfl, nonempty, dirs⟩
  · rintro ⟨rfl, nonempty, dirs⟩
    rw [validateExtensions_eq_iff.2 ⟨rfl, nonempty⟩] at checked
    obtain ⟨rfl, rfl⟩ := Prod.mk.inj checked
    simp [dirs]

theorem validateScan_again_iff {s t : ScanSettings} (valid : validateScan s = (t, none)) :
    validateScan t = (t, none) ↔ ∀ ext ∈ s.extensions, IsPlainExtension ext := by
  obtain ⟨rfl, nonempty, dirs⟩ := validateScan_eq_iff.1 valid
  rw [validateScan_eq_iff]
  simp only [ScanSettings.mk.injEq, and_true, nonempty, not_false_eq_true, dirs, List.map_map]
  rw [List.map_inj_left]
  refine forall₂_congr fun ext _ => ?_
  rw [← normalizeExtension_again_iff, eq_comm]
  rfl

theorem validateReport_again {s t : ReportSettings} (valid : validateReport s = (t, none)) :
    validateReport t = (t, none) := by
  rw [validateReport] at valid
  split at valid
  next none =>
    obtain ⟨rfl, _⟩ := Prod.mk.inj valid
    rw [validateReport, if_pos none]
  next given =>
    obtain ⟨rfl, known⟩ := Prod.mk.inj valid
    have given' : Text.toLower s.format ≠ "" := fun none => given (Text.toLower_eq_empty_iff.1 none)
    rw [validateReport, if_neg given']
    simpa using known

theorem validateFixer_eq_iff {s t : FixerSettings} (given : s.url ≠ "") : validateFixer s = (t, none) ↔
    t = { s with url := normalHost s.url } ∧ checkHost t.url = none := by
  rw [validateFixer, if_neg given, Prod.mk.injEq, eq_comm]
  exact and_congr_right fun same => by rw [same]

theorem validateFixer_again_iff {s t : FixerSettings} (valid : validateFixer s = (t, none)) :
    validateFixer t = (t, none) ↔ (s.url ≠ "" → NamesHost s.url) := by
  by_cases none : s.url = ""
  · rw [validateFixer, if_pos none] at valid
    obtain ⟨rfl, _⟩ := Prod.mk.inj valid
    simp [validateFixer, none]
  · obtain ⟨rfl, checked⟩ := (validateFixer_eq_iff none).1 valid
    have given : ({ s with url := normalHost s.url } : FixerSettings).url ≠ "" := normalHost_ne_empty s.url
    rw [validateFixer_eq_iff given, ← normalHost_again_iff]
    constructor
    · rintro ⟨same, _⟩ _
      exact (congrArg FixerSettings.url same).symm
    · intro same
      exact ⟨by rw [same none], checked⟩

theorem validate_eq_iff {s t : Settings} : validate s = (t, none) ↔
    validateHttp s.http = (t.http, none) ∧ validateScan s.scan = (t.scan, none) ∧
      validateReport s.report = (t.report, none) ∧ validateFixer s.fixer = (t.fixer, none) ∧
      t.log = s.log ∧ t.failOn = s.failOn := by
  simp only [validate]
  generalize validateHttp s.http = http, validateScan s.scan = scan, validateReport s.report = report,
    validateFixer s.fixer = fixer
  obtain ⟨http, _ | fault⟩ := http
  · obtain ⟨scan, _ | fault⟩ := scan
    · obtain ⟨report, _ | fault⟩ := report
      · obtain ⟨fixer, fault⟩ := fixer
        simp only [Prod.mk.injEq, and_true, Option.map_eq_none_iff]
        constructor
        · rintro ⟨rfl, rfl⟩
          exact ⟨rfl, rfl, rfl, ⟨rfl, rfl⟩, rfl, rfl⟩
        · rintro ⟨rfl, rfl, rfl, ⟨rfl, rfl⟩, log, failOn⟩
          exact ⟨by rw [← log, ← failOn], rfl⟩
      · simp
    · simp
  · simp

theorem validate_again_iff {s t : Settings} (valid : validate s = (t, none)) : validate t = (t, none) ↔
    (∀ ext ∈ s.scan.extensions, IsPlainExtension ext) ∧
    (ProxyCounts s.http.proxy → NamesHost s.http.proxy.host) ∧ (s.fixer.url ≠ "" → NamesHost s.fixer.url) := by
  obtain ⟨http, scan, report, fixer, _⟩ := validate_eq_iff.1 valid
  rw [validate_eq_iff, validateHttp_again_iff http, validateScan_again_iff scan, validateFixer_again_iff fixer]
  simp only [validateReport_again report, true_and, and_true]
  exact and_left_comm

/-! The extensions that a selection takes -/

/-- All of some extensions in lower case are their own normal forms if there is one for each of them, since a
longest one that is not could be the normal form only of a longer one. -/
theorem forall_normal_of_exists {exts : List String} (lower : ∀ ext ∈ exts, Text.toLower ext = ext)
    (reached : ∀ ext ∈ exts, ∃ longer ∈ exts, normalizeExtension longer = ext) :
    ∀ ext ∈ exts, normalizeExtension ext = ext := by
  by_contra unsettled
  push Not at unsettled
  have some : exts.filter (fun ext => normalizeExtension ext ≠ ext) ≠ [] := by simpa using unsettled
  obtain ⟨longest, top⟩ := Option.ne_none_iff_exists'.1 (mt (List.argmax_eq_none (f := String.length)).1 some)
  obtain ⟨mem, changes⟩ := List.mem_filter.1 (List.argmax_mem top)
  obtain ⟨longer, mem', rfl⟩ := reached longest mem
  have changes' : normalizeExtension longer ≠ longer := by
    intro same
    rw [same, same] at changes
    simp at changes
  have shorter := (normalizeExtension_cases (lower longer mem')).resolve_left changes'
  have bounded := List.le_of_mem_argmax (List.mem_filter.2 ⟨mem', by simpa using changes'⟩) top
  omega

/-- Extensions that were checked are those that a selection takes just if they are in normal form. -/
theorem allowed_iff {options : ScanOptions} (given : options.extensions ≠ [])
    (all : options.excludedExtensions = []) (nonempty : "" ∉ options.extensions)
    (lower : ∀ ext ∈ options.extensions, Text.toLower ext = ext) :
    (∀ ext, ext ∈ Selection.allowed options ↔ ext ∈ options.extensions) ↔
      ∀ ext ∈ options.extensions, normalizeExtension ext = ext := by
  have taken (ext : String) : ext ∈ Selection.allowed options ↔
      (∃ e ∈ options.extensions, normalizeExtension e = ext) ∧ ext ≠ "" := by
    rw [Selection.mem_allowed, ScanOptions.AllowsExtension, ScanOptions.wanted, all,
      if_neg (by simpa using given)]
    simp [normalizeAll]
  constructor
  · intro same
    exact forall_normal_of_exists lower fun ext mem => ((taken ext).1 ((same ext).2 mem)).1
  · intro normal ext
    rw [taken]
    constructor
    · rintro ⟨⟨e, mem, rfl⟩, _⟩
      rwa [normal e mem]
    · intro mem
      exact ⟨⟨ext, mem, normal ext mem⟩, fun empty => nonempty (empty ▸ mem)⟩

/-- **Settings that were checked.** Checked again they are accepted and nothing is changed just if each
extension is plain, and the proxy, if it counts, and the fixer, if there is one, each name a host. A selection
with the checked extensions, when there are any and none is excluded, takes just those if and only if each
extension is plain. -/
theorem validate_settles_iff {s t : Settings} (valid : validate s = (t, none)) :
    (validate t = (t, none) ↔
      (∀ ext ∈ s.scan.extensions, IsPlainExtension ext) ∧
      (ProxyCounts s.http.proxy → NamesHost s.http.proxy.host) ∧
      (s.fixer.url ≠ "" → NamesHost s.fixer.url)) ∧
    (t.scan.extensions ≠ [] → ∀ (host : Host) (options : ScanOptions) (root : String),
      options.extensions = t.scan.extensions → options.excludedExtensions = [] →
      Text.trim options.root ≠ "" → host.absolute options.root = .ok root →
      ∃ selection, Selection.ofOptions host options = .ok selection ∧
        ((∀ ext, selection.allowsExtension ext ↔ ext ∈ t.scan.extensions) ↔
          ∀ ext ∈ s.scan.extensions, IsPlainExtension ext)) := by
  refine ⟨validate_again_iff valid, fun some host options root given all named resolved => ?_⟩
  obtain ⟨same, nonempty, _⟩ := validateScan_eq_iff.1 (validate_eq_iff.1 valid).2.1
  have checked : t.scan.extensions = s.scan.extensions.map normalizeExtension := by rw [same]
  rw [Selection.ofOptions, if_neg named, resolved]
  refine ⟨_, rfl, ?_⟩
  have lower : ∀ ext ∈ options.extensions, Text.toLower ext = ext := by
    rw [given, checked, List.forall_mem_map]
    exact fun ext _ => toLower_normalizeExtension ext
  have taken := allowed_iff (given ▸ some) all (given ▸ nonempty) lower
  simp only [Selection.allowsExtension, decide_eq_true_eq, ← given, taken]
  rw [given, checked, List.forall_mem_map]
  exact forall₂_congr fun ext _ => normalizeExtension_again_iff

/-- Extensions in capitals and with a dot, and a fixer without a scheme: all of this has a normal form. -/
def usualSettings : Settings :=
  { scan := { extensions := [".PHP", "xml"] }, fixer := { url := "fixer.example.com/" } }

/-- Two dots before an extension, of which one is left. -/
def dottedSettings : Settings := { scan := { extensions := ["..php"] } }

/-- A scheme with nothing after it, which loses its slashes. -/
def slashedSettings : Settings := { fixer := { url := "http:///" } }

theorem validate_settles_iff_usual :
    (validate usualSettings).2 = none ∧ validate (validate usualSettings).1 = validate usualSettings ∧
    (validate dottedSettings).2 = none ∧ validate (validate dottedSettings).1 ≠ validate dottedSettings ∧
    (validate slashedSettings).2 = none ∧ validate (validate slashedSettings).1 ≠ validate slashedSettings := by
  have accepted {s : Settings} (valid : (validate s).2 = none) : validate s = ((validate s).1, none) := by
    rw [← valid]
  have usual : (validate usualSettings).2 = none := by decide +kernel
  have dotted : (validate dottedSettings).2 = none := by decide +kernel
  have slashed : (validate slashedSettings).2 = none := by decide +kernel
  refine ⟨usual, ?_, dotted, ?_, slashed, ?_⟩
  · rw [accepted usual]
    refine (validate_settles_iff (accepted usual)).1.2 ⟨?_, fun counts => absurd rfl counts.1, fun _ => ?_⟩
    · intro ext mem c rest split
      have second : ∀ ext ∈ usualSettings.scan.extensions, (Text.trim ext).toList[1]? = some 'P' ∨
          (Text.trim ext).toList.head? ≠ some '.' := by decide +kernel
      rcases second ext mem with isLetter | noDot
      · rw [split] at isLetter
        obtain rfl := Option.some.inj isLetter
        decide
      · exact absurd (by rw [split]; rfl) noDot
    · exact contains_normalHost_iff.1 (by decide +kernel)
  · rw [accepted dotted]
    intro settled
    have plain := ((validate_settles_iff (accepted dotted)).1.1 settled).1 "..php" List.mem_cons_self
    exact (plain '.' "php".toList (by decide +kernel)).1 rfl
  · rw [accepted slashed]
    intro settled
    have named := ((validate_settles_iff (accepted slashed)).1.1 settled).2.2 (by decide)
    exact absurd (contains_normalHost_iff.2 named) (by decide +kernel)

end Settings

end ShopLint
