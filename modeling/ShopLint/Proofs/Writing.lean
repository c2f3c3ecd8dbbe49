import ShopLint.Proofs.Placement

/-!
Writing a file. If nothing fails, the path that was written leads to the new text, through whatever links
it has, and no other file of the host is new.
-/

namespace ShopLint

/-- Where a file can be put there is nothing but files. -/
theorem Place.isFile_of_isRoom {place : Place} {entry : Entry} (room : place.isRoom)
    (found : place.entry? = some entry) : entry.isFile := by
  rw [isRoom, found] at room
  exact room

namespace Entry

/-- At the names there is a directory. -/
def HasDirAt (tree : Entry) (names : List String) : Prop := ∃ entries, tree.at? names = some (dir entries)

/-! Putting an entry into a tree -/

section

variable {tree entry : Entry} {names here : List String}

/-- No order of the names is needed: `putIn` changes the first entry of that name, or there was none. -/
theorem lookup_putIn (name other : String) (entry : Entry) (entries : List (String × Entry)) :
    (putIn name entry entries).lookup other =
      if other = name then some entry else entries.lookup other := by
  have lookup_cons (name : String) (entry : Entry) (entries : List (String × Entry)) :
      ((name, entry) :: entries).lookup other =
        if other = name then some entry else entries.lookup other := by
    rw [List.lookup_cons, beq_eq_decide]
    by_cases same : other = name <;> simp [same]
  induction entries with
  | nil => exact lookup_cons name entry []
  | cons first rest ih =>
    obtain ⟨n, e⟩ := first
    simp only [putIn]
    split
    · exact lookup_cons name entry _
    · split
      · simp only [lookup_cons]
        grind
      · simp only [lookup_cons, ih]
        grind

theorem at?_put_cons (tree entry : Entry) (name first : String) (names here : List String) :
    (tree.put (name :: names) entry).at? (first :: here) =
      if first = name then (((tree.entries.lookup name).getD (dir [])).put names entry).at? here
      else tree.at? (first :: here) := by
  show ((putIn name _ tree.entries).lookup first).bind _ = _
  rw [lookup_putIn]
  split
  · rfl
  · rfl

theorem at?_put_append (tree entry : Entry) (names more : List String) :
    (tree.put names entry).at? (names ++ more) = entry.at? more := by
  induction names generalizing tree with
  | nil => rfl
  | cons name names ih =>
    rw [List.cons_append, at?_put_cons, if_pos rfl]
    exact ih _

theorem at?_put_self (tree entry : Entry) (names : List String) :
    (tree.put names entry).at? names = some entry := by
  have there := at?_put_append tree entry names []
  rwa [List.append_nil] at there

/-- The way to what is put leads through directories. -/
theorem hasDirAt_put (above : here <+: names) (below : ¬names <+: here) :
    (tree.put names entry).HasDirAt here := by
  induction here generalizing tree names with
  | nil =>
    cases names with
    | nil => exact absurd List.nil_prefix below
    | cons name names => exact ⟨_, rfl⟩
  | cons first here ih =>
    obtain ⟨more, rfl⟩ := above
    rw [HasDirAt, List.cons_append, at?_put_cons, if_pos rfl]
    rw [List.cons_append, List.prefix_cons_inj] at below
    exact ih (List.prefix_append _ _) below

/-- What is neither on the way to the new entry nor below it stays. -/
theorem at?_put_of_apart (above : ¬here <+: names) (below : ¬names <+: here) :
    (tree.put names entry).at? here = tree.at? here := by
  induction names generalizing tree here with
  | nil => exact absurd List.nil_prefix below
  | cons name names ih =>
    cases here with
    | nil => exact absurd List.nil_prefix above
    | cons first here =>
      rw [at?_put_cons]
      split
      next same =>
        subst same
        rw [List.prefix_cons_inj] at above below
        rw [ih above below, at?]
        -- where nothing was, there is nothing below either
        cases tree.entries.lookup first with
        | some sub => rfl
        | none =>
          cases here with
          | nil => exact absurd List.nil_prefix above
          | cons next here => rfl
      next => rfl

/-- A file of the new tree comes with the new entry, or stood there before. -/
theorem at?_put_eq_file {bytes : List UInt8} (h : (tree.put names entry).at? here = some (file bytes)) :
    (∃ more, here = names ++ more ∧ entry.at? more = some (file bytes)) ∨
      tree.at? here = some (file bytes) := by
  by_cases below : names <+: here
  · obtain ⟨more, rfl⟩ := below
    rw [at?_put_append] at h
    exact .inl ⟨more, rfl, h⟩
  by_cases above : here <+: names
  · obtain ⟨inner, isDir⟩ := hasDirAt_put above below
    rw [isDir] at h
    cases h
  · rw [at?_put_of_apart above below] at h
    exact .inr h

theorem HasDirAt.put (h : tree.HasDirAt here) (below : ¬names <+: here) :
    (tree.put names entry).HasDirAt here := by
  by_cases above : here <+: names
  · exact hasDirAt_put above below
  · rw [HasDirAt, at?_put_of_apart above below]
    exact h

theorem HasDirAt.of_at?_append {name : String} {more : List String}
    (h : tree.at? (here ++ name :: more) = some entry) : tree.HasDirAt here := by
  rw [at?_append] at h
  obtain ⟨sub, first, rest⟩ := Option.bind_eq_some_iff.1 h
  obtain ⟨inner, rfl⟩ := eq_dir_of_at?_cons rest
  exact ⟨inner, first⟩

theorem HasDirAt.of_prefix (h : tree.HasDirAt names) (above : here <+: names) : tree.HasDirAt here := by
  obtain ⟨more, rfl⟩ := above
  cases more with
  | nil => rwa [List.append_nil] at h
  | cons name more =>
    obtain ⟨inner, found⟩ := h
    exact .of_at?_append found

theorem HasDirAt.afterLink (h : tree.HasDirAt here) (target : String) :
    tree.HasDirAt (if Path.isAbsolute target then [] else here) := by
  split
  · exact h.of_prefix List.nil_prefix
  · exact h

end

/-! A way that leads to a place for a file -/

section

variable {tree : Entry} {follow : Bool} {links : Nat} {here todo : List String} {place : Place}

theorem at?_of_locate (h : tree.locate follow links here todo = .ok place) :
    tree.at? place.names = place.entry? := by
  fun_induction tree.locate follow links here todo with
  | case1 | case6 | case9 | case12 =>
    cases h
    assumption
  | case3 | case4 | case8 | case11 =>
    rename_i ih
    exact ih h
  | case2 | case5 | case7 | case10 | case13 => cases h

/-- A way that starts in a directory ends in one, or next below one. -/
theorem HasDirAt.of_locate (start : tree.HasDirAt here)
    (h : tree.locate follow links here todo = .ok place) : tree.HasDirAt place.names.dropLast := by
  fun_induction tree.locate follow links here todo with
  | case1 =>
    cases h
    exact start.of_prefix (List.dropLast_prefix _)
  | case4 links here rest named ih => exact ih (start.of_prefix (List.dropLast_prefix _)) h
  | case3 links here name rest skipped ih => exact ih start h
  | case8 links here name rest named down short inner isDir ih => exact ih ⟨inner, isDir⟩ h
  | case11 here name rest named down short target isLink followed links ih =>
    exact ih (start.afterLink target) h
  | case6 | case9 | case12 =>
    cases h
    simpa only [Place.names, List.dropLast_concat] using start
  | case2 | case5 | case7 | case10 | case13 => cases h

theorem locate_file {name : String} (named : ¬(name = "" || name = ".") = true) (down : name ≠ "..")
    (short : ¬255 < name.utf8ByteSize) {bytes : List UInt8}
    (found : tree.at? (here ++ [name]) = some (file bytes)) :
    tree.locate follow links here [name] = .ok (.found (here ++ [name]) (file bytes)) := by
  rw [locate, if_neg named, if_neg down, if_neg short, found]
  rfl

/-- Below a place for a file there is nothing, and nothing but a file is there. -/
theorem not_prefix_of_isRoom (old : tree.at? place.names = place.entry?) (room : place.isRoom)
    {pos : List String} {entry : Entry} (found : tree.at? pos = some entry) (other : ¬entry.isFile) :
    ¬place.names <+: pos := by
  rintro ⟨more, rfl⟩
  cases more with
  | nil =>
    rw [List.append_nil, old] at found
    exact other (Place.isFile_of_isRoom room found)
  | cons name more =>
    obtain ⟨inner, isDir⟩ := HasDirAt.of_at?_append found
    exact absurd (Place.isFile_of_isRoom room (old ▸ isDir)) (by simp [isFile])

/-- The place that a link leads to is not below the link. -/
theorem not_prefix_of_link {pos : List String} {target : String} (isLink : tree.at? pos = some (link target))
    (below : ¬place.names <+: pos) (parent : tree.HasDirAt place.names.dropLast) :
    ¬pos <+: place.names := by
  rintro ⟨more, eq⟩
  have some : more ≠ [] := by
    rintro rfl
    exact below (by simp [← eq])
  rw [← eq, List.dropLast_append_of_ne_nil some] at parent
  obtain ⟨inner, isDir⟩ := parent.of_prefix (List.prefix_append _ _)
  rw [isDir] at isLink
  cases isLink

/-- A file that is put where a way leads stands at the end of that same way. -/
theorem locate_put (h : tree.locate true links here todo = .ok place) (room : place.isRoom)
    (bytes : List UInt8) :
    (tree.put place.names (file bytes)).locate true links here todo =
      .ok (.found place.names (file bytes)) := by
  have new := at?_put_self tree (file bytes) place.names
  have old := at?_of_locate h
  -- along the way only directories and links are passed: the former stay directories, and the latter
  -- neither lie above the new file nor below it
  fun_induction tree.locate true links here todo with
  | case1 links here entry found =>
    cases h
    rw [Place.names] at new ⊢
    rw [locate, new]
  | case3 links here name rest skipped ih =>
    rw [locate_skip skipped]
    exact ih h
  | case4 links here rest named ih =>
    rw [locate_up]
    exact ih h
  | case6 links here name rest named down short nothing last =>
    cases h
    obtain rfl := List.isEmpty_iff.1 last
    exact locate_file named down short new
  | case8 links here name rest named down short inner isDir ih =>
    have below := not_prefix_of_isRoom old room isDir (by simp [isFile])
    obtain ⟨inner', isDir'⟩ := HasDirAt.put ⟨inner, isDir⟩ below
    rw [locate_dir named down short isDir']
    exact ih h
  | case11 here name rest named down short target isLink followed links ih =>
    have below := not_prefix_of_isRoom old room isLink (by simp [isFile])
    have start := HasDirAt.of_at?_append isLink
    have above := not_prefix_of_link isLink below ((start.afterLink target).of_locate h)
    rw [locate_link named down short ((at?_put_of_apart above below).trans isLink)]
    exact ih h
  | case12 links here name rest named down short entry notDir notLink isEntry last =>
    cases h
    obtain rfl := List.isEmpty_iff.1 last
    exact locate_file named down short new
  | case9 _ _ _ _ _ _ _ _ _ notFollowed => simp at notFollowed
  | case2 | case5 | case7 | case10 | case13 => cases h

end

end Entry

namespace Host

/-- Every file of the host after was there before, or stands where new ones are allowed. -/
def AddsFilesOnly (before after : Host) (allowed : List String → Prop) : Prop :=
  ∀ names bytes, after.tree.at? names = some (.file bytes) →
    before.tree.at? names = some (.file bytes) ∨ allowed names

/-- The text is in the file that the path leads to, and no other file is new; or what the path leads to
takes the whole text without becoming a file, and no file is new. -/
def Stores (before after : Host) (path text : String) : Prop :=
  (∃ names, after.place true path = .ok (.found names (.text text)) ∧
    before.AddsFilesOnly after (· = names)) ∨
  ∃ names entry, after.place true path = .ok (.found names entry) ∧ ¬entry.isFile ∧ ¬entry.isDir ∧
    after.pour names (Utf8.encode text) = (Utf8.encode text, none) ∧
    before.AddsFilesOnly after fun _ => False

variable {host before middle after : Host} {path text : String} {names : List String}
  {bytes : List UInt8} {allowed : List String → Prop}

theorem AddsFilesOnly.refl (host : Host) (allowed : List String → Prop) :
    host.AddsFilesOnly host allowed := fun _ _ found => .inl found

/-- Nothing is new in between. -/
theorem AddsFilesOnly.trans (first : before.AddsFilesOnly middle fun _ => False)
    (second : middle.AddsFilesOnly after allowed) : before.AddsFilesOnly after allowed := by
  intro names bytes found
  rcases second names bytes found with old | new
  · rcases first names bytes old with old | none
    · exact .inl old
    · exact none.elim
  · exact .inr new

/-- What is put brings its own files. -/
theorem addsFilesOnly_put (host : Host) (names : List String) {entry : Entry}
    (h : ∀ more bytes, entry.at? more = some (.file bytes) → allowed (names ++ more)) :
    host.AddsFilesOnly { host with tree := host.tree.put names entry } allowed := by
  intro pos bytes found
  rcases Entry.at?_put_eq_file found with ⟨more, rfl, new⟩ | old
  · exact .inr (h more bytes new)
  · exact .inl old

/-! Making directories, which may come to a halt half-way -/

theorem addsFilesOnly_changed {ε : Type} {made : Except ε Host}
    (h : ∀ after, made = .ok after → host.AddsFilesOnly after allowed) :
    host.AddsFilesOnly (host.changed made).1 allowed := by
  cases made with
  | ok after => exact h after rfl
  | error cause => exact .refl host allowed

theorem addsFilesOnly_andThen {ε : Type} {first : Changed ε} {next : Host → Changed ε}
    (h : host.AddsFilesOnly first.1 fun _ => False)
    (h' : ∀ middle : Host, middle.AddsFilesOnly (next middle).1 fun _ => False) :
    host.AddsFilesOnly (first.andThen next).1 fun _ => False := by
  obtain ⟨middle, stopped⟩ := first
  cases stopped with
  | some cause => exact h
  | none => exact AddsFilesOnly.trans h (h' middle)

theorem addsFilesOnly_mkdir (h : host.mkdir path = .ok after) :
    host.AddsFilesOnly after fun _ => False := by
  simp only [mkdir] at h
  split at h
  next names _ =>
    split at h
    · cases h
    · cases h
      refine addsFilesOnly_put host names fun more bytes new => ?_
      cases more with
      | nil => cases new
      | cons name more => simp [Entry.at?, Entry.entries] at new
  next => cases h
  next => cases h

theorem addsFilesOnly_mkdirUnlessDir (h : host.mkdirUnlessDir path = .ok after) :
    host.AddsFilesOnly after fun _ => False := by
  simp only [mkdirUnlessDir] at h
  split at h
  next made =>
    cases h
    exact addsFilesOnly_mkdir made
  next =>
    split at h
    · cases h
      exact .refl host _
    · cases h

theorem addsFilesOnly_mkdirAllUpTo (depth : Nat) (host : Host) (path : String) :
    host.AddsFilesOnly (mkdirAllUpTo depth host path).1 fun _ => False := by
  fun_induction mkdirAllUpTo depth host path with
  | case1 => exact .refl _ _
  | case2 => exact addsFilesOnly_changed fun _ => addsFilesOnly_mkdir
  | case3 | case4 => exact addsFilesOnly_changed fun _ => addsFilesOnly_mkdirUnlessDir
  | case5 path cause failed depth parent named above ih =>
    exact addsFilesOnly_andThen ih fun _ => addsFilesOnly_changed fun _ => addsFilesOnly_mkdirUnlessDir

theorem addsFilesOnly_ensureFolder (host : Host) (folder : String) :
    host.AddsFilesOnly (host.ensureFolder folder).1 fun _ => False := by
  simp only [ensureFolder]
  split
  · exact .refl host _
  · split
    · exact addsFilesOnly_mkdirAllUpTo _ host folder
    · exact .refl host _

/-! Putting the text into the file -/

theorem place_eq_ok {follow : Bool} {place : Place} (h : host.place follow path = .ok place) :
    Takes path ∧
      host.tree.locate follow linkLimit (host.start path) (Path.segments path) = .ok place := by
  by_cases takes : Takes path
  · rw [place_of_takes takes] at h
    exact ⟨takes, h⟩
  · obtain ⟨cause, failed⟩ := place_of_not_takes takes host follow
    rw [failed] at h
    cases h

theorem place_put {place : Place} (h : host.place true path = .ok place) (room : place.isRoom)
    (bytes : List UInt8) :
    ({ host with tree := host.tree.put place.names (.file bytes) } : Host).place true path =
      .ok (.found place.names (.file bytes)) := by
  obtain ⟨takes, way⟩ := place_eq_ok h
  rw [place_of_takes takes]
  exact Entry.locate_put way room bytes

/-- What the disk takes without a complaint it takes whole. -/
theorem pour_complete (h : (host.pour names bytes).2 = none) : host.pour names bytes = (bytes, none) := by
  simp only [pour] at h ⊢
  split at h
  next none => rw [if_pos none, List.isEmpty_iff.1 none]
  next some =>
    rw [if_neg some]
    exact Prod.ext ((host.sink names).complete bytes h) h

theorem openPlace_eq_ok {place : Place} (h : host.openPlace path = .ok place) :
    host.place true path = .ok place ∧ ¬place.isDir := by
  simp only [openPlace] at h
  split at h
  · cases h
  next found =>
    split at h
    · cases h
    next notDir =>
      split at h
      · cases h
      · cases h
        exact ⟨found, notDir⟩

/-- What is put without a failure is stored, in a file or in what takes its place. -/
theorem put_stores (h : (host.put path (Utf8.encode text)).2 = none) :
    host.Stores (host.put path (Utf8.encode text)).1 path text := by
  simp only [put] at h ⊢
  split at h
  · cases h
  next place opened =>
    obtain ⟨found, notDir⟩ := openPlace_eq_ok opened
    have whole := pour_complete (Option.map_eq_none_iff.1 h)
    simp only [whole]
    split
    next room =>
      refine .inl ⟨place.names, place_put found room _, addsFilesOnly_put host _ ?_⟩
      intro more bytes new
      cases more with
      | nil => exact List.append_nil _
      | cons name more => simp [Entry.at?, Entry.entries] at new
    next occupied =>
      cases place with
      | absent names => exact absurd rfl occupied
      | found names entry =>
        exact .inr ⟨names, entry, found, occupied, notDir, whole, .refl _ _⟩

theorem write_stores (h : (host.write path text).2 = none) :
    host.Stores (host.write path text).1 path text := by
  have folder := addsFilesOnly_ensureFolder host (Path.dir path)
  simp only [write, Changed.andThen] at h ⊢
  split at h
  · cases h
  next middle made =>
    rw [made] at folder
    rcases put_stores h with ⟨names, found, new⟩ | ⟨names, entry, found, notFile, notDir, whole, new⟩
    · exact .inl ⟨names, found, folder.trans new⟩
    · exact .inr ⟨names, entry, found, notFile, notDir, whole, folder.trans new⟩

end Host

end ShopLint
