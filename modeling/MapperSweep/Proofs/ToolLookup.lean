import MapperSweep.Proofs.PathText
import MapperSweep.Proofs.Utf8.Malformed
import MapperSweep.ToolLookup

/-!
# Where the tool is found

A bare name is looked for at paths that are put together from the directories of the search path.
Such a path leads to what the directory holds under this name, because following a path only depends
on its trail, and because the working directory is found again from the root.  So the first path
that leads to a program belongs to the first directory that holds one.

The variable that names a tool in the place of the configured one is heeded only if it holds text.
If it is set to bytes that are not Unicode, the configured tool is taken without a word.

## Key results

- `Workspace.foldlM_follow_trail`: following a path only depends on its trail
- `Workspace.foldlM_follow_origin`: relative paths can be followed from the root
- `ToolLookup.exists_candidate?_isPathIn`: the path that is tried for a directory of the search path
- `ToolLookup.search_eq_none_iff`, `ToolLookup.exists_search_eq_some`: where a name is found
- `ToolLookup.wanted_iff`: which tool is looked for
- `ToolLookup.toolPath_finds_first_program`: which tool is found, whatever the variable holds
-/

namespace MapperSweep

namespace Workspace

/-- `IsName name` holds of what a file or directory can be called. -/
def IsName (name : String) : Prop :=
  PathText.IsNormal name ∧ '/' ∉ name.toList ∧ Char.ofNat 0 ∉ name.toList

instance (name : String) : Decidable (IsName name) :=
  inferInstanceAs (Decidable ((name ≠ "" ∧ name ≠ "." ∧ name ≠ "..") ∧ _))

/-- Everything in `w` has a proper name, and the working directory and all directories above it are
    there. -/
structure WellFormed (w : Workspace) : Prop where
  names : ∀ e ∈ w.entries, ∀ name ∈ e.1, IsName name
  home : ∀ n ≤ w.home.length, w.get? (w.home.take n) = some .directory

/-- `w.HasEntry path` holds if there is something at the end of `path`. -/
def HasEntry (w : Workspace) (path : String) : Prop :=
  ∃ loc e, w.locate path = .ok loc ∧ w.get? loc = some e

/-- Where `path` starts: at the root, or in the working directory. -/
def origin (w : Workspace) (path : String) : Location :=
  if PathText.isAbsolute path then [] else w.home

variable {w : Workspace} {loc : Location} {path name : String}

/-! ## Proper names -/

theorem WellFormed.isName (hw : w.WellFormed) {e : Entry} (h : w.get? loc = some e) :
    ∀ name ∈ loc, IsName name := by
  obtain ⟨front, back, hentries, -⟩ := List.lookup_eq_some_iff.1 h
  exact hw.names (loc, e) (by rw [hentries]; simp)

theorem WellFormed.get?_home (hw : w.WellFormed) : w.get? w.home = some .directory := by
  have hhome := hw.home w.home.length (Nat.le_refl _)
  rwa [List.take_length] at hhome

theorem WellFormed.isName_home (hw : w.WellFormed) : ∀ name ∈ w.home, IsName name :=
  hw.isName hw.get?_home

/-! ## Following paths -/

/-- `follow` goes from a directory to a `name` in it, be it there or not. -/
theorem follow_eq_ok_iff (hname : PathText.IsNormal name) {next : Location} :
    w.follow loc name = .ok next ↔ w.get? loc = some .directory ∧ next = loc ++ [name] := by
  unfold follow
  cases hget : w.get? loc with
  | none => simp
  | some e =>
    cases e with
    | file executable content => simp
    | directory => simp [hname.1, hname.2.1, hname.2.2, eq_comm]

/-- A `piece` that does not lead anywhere only asks for a directory, and so does the `next`
    piece. -/
private theorem follow_bind_follow {piece : String} (h : PathText.leads piece = false)
    (next : String) : (w.follow loc piece >>= fun l => w.follow l next) = w.follow loc next := by
  have hstay := PathText.leads_eq_false_iff.1 h
  unfold follow
  cases hget : w.get? loc with
  | none => rfl
  | some e =>
    cases e with
    | file executable content => rfl
    | directory => simp [hstay, hget, bind, Except.bind]

/-- Following a path depends on nothing but its `trail` and its last piece. -/
theorem foldlM_follow_trail (w : Workspace) (loc : Location) (front : List String) (last : String) :
    (front ++ [last]).foldlM w.follow loc =
      (front.filter PathText.leads ++ [last]).foldlM w.follow loc := by
  induction front generalizing loc with
  | nil => rfl
  | cons piece front ih =>
    rw [List.cons_append, List.foldlM_cons]
    cases hleads : PathText.leads piece with
    | true =>
      rw [List.filter_cons_of_pos hleads, List.cons_append, List.foldlM_cons]
      exact bind_congr fun next => ih next
    | false =>
      rw [List.filter_cons_of_neg (by simp [hleads]), bind_congr fun next => ih next]
      -- What comes next is looked for in the same directory.
      cases hrest : front.filter PathText.leads ++ [last] with
      | nil => simp at hrest
      | cons next rest =>
        simp only [List.foldlM_cons]
        rw [← bind_assoc, follow_bind_follow hleads]

/-- A `name` at the end of a path is looked for in the directory that the path before it leads
    to. -/
theorem foldlM_follow_concat (hname : PathText.IsNormal name) {start : Location}
    {front : List String} {next : Location} :
    (front ++ [name]).foldlM w.follow start = .ok next ↔
      ∃ loc, front.foldlM w.follow start = .ok loc ∧ w.get? loc = some .directory ∧
        next = loc ++ [name] := by
  simp only [List.foldlM_append, List.foldlM_cons, List.foldlM_nil, bind_pure]
  cases hfront : front.foldlM w.follow start with
  | error e => simp [bind, Except.bind]
  | ok loc =>
    show w.follow loc name = .ok next ↔ _
    rw [follow_eq_ok_iff hname]
    simp

/-- The working directory is found again from the root. -/
private theorem foldlM_follow_home (hw : w.WellFormed) :
    w.home.foldlM w.follow [] = .ok w.home := by
  -- By induction on how far the way down to it has been followed.
  have hpart : ∀ n ≤ w.home.length,
      (w.home.take n).foldlM w.follow [] = .ok (w.home.take n) := by
    intro n
    induction n with
    | zero => intro _; rfl
    | succ n ih =>
      intro hn
      have hmem : w.home[n] ∈ w.home := List.getElem_mem _
      rw [List.take_succ_eq_append_getElem (by omega),
        foldlM_follow_concat (hw.isName_home _ hmem).1]
      exact ⟨_, ih (by omega), hw.home n (by omega), rfl⟩
  have hall := hpart w.home.length (Nat.le_refl _)
  rwa [List.take_length] at hall

/-- Relative paths can be followed from the root, through the `origin` of the path. -/
theorem foldlM_follow_origin (hw : w.WellFormed) (path : String) (pieces : List String) :
    (w.origin path ++ pieces).foldlM w.follow [] = pieces.foldlM w.follow (w.origin path) := by
  unfold origin
  split
  · rfl
  · rw [List.foldlM_append, foldlM_follow_home hw]
    rfl

/-- `locate` finds a location if the pieces of `path` can be followed from its `origin`. -/
theorem locate_eq_ok_iff :
    w.locate path = .ok loc ↔
      Char.ofNat 0 ∉ path.toList ∧ path ≠ "" ∧
        (PathText.pieces path).foldlM w.follow (w.origin path) = .ok loc := by
  unfold locate
  by_cases hnul : Char.ofNat 0 ∈ path.toList
  · simp [hnul]
  by_cases hempty : path = ""
  · simp [hempty]
  · simp [hnul, hempty, String.isEmpty_iff]
    rfl

/-- `isProgram` holds if there is an executable file at the end of `path`. -/
theorem isProgram_iff :
    w.isProgram path = true ↔
      ∃ loc content, w.locate path = .ok loc ∧ w.get? loc = some (.file true content) := by
  simp only [isProgram, find, bind, Except.bind]
  cases hloc : w.locate path with
  | error e => simp
  | ok loc =>
    cases hget : w.get? loc with
    | none => simp [hget]
    | some e =>
      cases e with
      | directory => simp [hget]
      | file executable content => cases executable <;> simp [hget]

theorem contains_iff : w.contains path = true ↔ w.HasEntry path := by
  simp only [contains, find, bind, Except.bind, HasEntry]
  cases hloc : w.locate path with
  | error e => simp [Except.toBool]
  | ok loc => cases hget : w.get? loc <;> simp [hget, Except.toBool]

end Workspace

namespace ToolLookup

/-- `Lists searchPath dirs` says which directories a search path lists.  If it is set, it is put
    together from them with colons. -/
inductive Lists : Option String → List String → Prop where
  | unset : Lists none []
  | set {dirs : List String} (hne : dirs ≠ []) (hcolon : ∀ dir ∈ dirs, ':' ∉ dir.toList) :
    Lists (some (":".intercalate dirs)) dirs

/-- `EntryAt w dir loc` says that the directory `dir` of the search path is at `loc`.  The empty one
    is the working directory. -/
def EntryAt (w : Workspace) (dir : String) (loc : Location) : Prop :=
  (dir = "" ∧ loc = w.home ∨ w.locate dir = .ok loc) ∧ w.get? loc = some .directory

/-- `Holds w name dir` says that the directory `dir` of the search path holds a program `name`. -/
def Holds (w : Workspace) (name dir : String) : Prop :=
  ∃ loc content, EntryAt w dir loc ∧ w.get? (loc ++ [name]) = some (.file true content)

/-- `IsPathIn w name dir path` says that `path` is an absolute path of `name` in the directory `dir`
    of the search path.  It has the components of the directory, from the root on, and leads to what
    the directory holds under this name. -/
structure IsPathIn (w : Workspace) (name dir path : String) : Prop where
  isAbsolute : PathText.isAbsolute path = true
  components : PathText.components path =
    w.origin dir ++ (PathText.components dir).filter (· != ".") ++ [name]
  leads : ∃ loc, EntryAt w dir loc ∧ w.locate path = .ok (loc ++ [name])

variable {w : Workspace} {name dir : String} {searchPath : Option String} {dirs : List String}

/-! ## Directories of the search path -/

/-- Every search path lists directories, those that `directories` finds in it. -/
theorem lists_iff : Lists searchPath dirs ↔ (searchPath.map directories).getD [] = dirs := by
  cases searchPath with
  | none =>
    constructor
    · intro h
      cases h
      rfl
    · rintro rfl
      exact .unset
  | some path =>
    have hsplit : directories path = dirs ↔
        dirs ≠ [] ∧ (∀ dir ∈ dirs, ':' ∉ dir.toList) ∧ path = ":".intercalate dirs :=
      Text.map_splitOnChar_eq_iff rfl
    rw [Option.map_some, Option.getD_some, hsplit]
    constructor
    · intro h
      cases h with
      | set hne hcolon => exact ⟨hne, hcolon, rfl⟩
    · rintro ⟨hne, hcolon, rfl⟩
      exact .set hne hcolon

/-- `EntryAt` from the pieces of the directory `dir`. -/
theorem entryAt_iff (hw : w.WellFormed) {loc : Location} :
    EntryAt w dir loc ↔ Char.ofNat 0 ∉ dir.toList ∧
      (PathText.pieces dir).foldlM w.follow (w.origin dir) = .ok loc ∧
        w.get? loc = some .directory := by
  unfold EntryAt
  by_cases hempty : dir = ""
  · subst hempty
    have hfollow : (PathText.pieces "").foldlM w.follow (w.origin "") = .ok w.home := by
      show w.follow w.home "" >>= pure = _
      simp [Workspace.follow, hw.get?_home]
    have hnowhere : w.locate "" ≠ .ok loc := by
      rw [ne_eq, Workspace.locate_eq_ok_iff]
      simp
    rw [hfollow, Except.ok.injEq, @eq_comm _ w.home loc]
    simp [hnowhere]
  · simp only [hempty, false_and, false_or, Workspace.locate_eq_ok_iff, ne_eq, not_false_eq_true,
      true_and, and_assoc]

/-- The path that `candidate?` tries for a relative directory starts at the root all the same. -/
private theorem candidate?_of_relative (habsolute : PathText.isAbsolute dir = false)
    (htilde : dir.toList.head? ≠ some '~') :
    candidate? w name dir =
      some (PathText.absolute (w.home ++ PathText.trail (PathText.join dir name))) := by
  have hhead : (PathText.components dir).head? ≠ some "~" := fun h =>
    htilde (PathText.head?_of_tilde habsolute h)
  simp only [candidate?, hhead, habsolute, false_and, if_false, Bool.false_eq_true]
  rcases PathText.components_cases (PathText.join dir name) with ⟨hcomponents, hdot⟩ | hcomponents
  · rw [hcomponents]
    split
    · rename_i rest htrail
      rw [htrail] at hdot
      exact absurd rfl hdot
    · rfl
  · simp only [hcomponents]

/-- The path that `candidate?` tries for the directory `dir` starts at the root, and its trail is
    that of `dir`, and `name`. -/
theorem exists_candidate? (hw : w.WellFormed) (hname : '/' ∉ name.toList)
    (hleads : PathText.leads name = true) (htilde : dir.toList.head? ≠ some '~') :
    ∃ path front, candidate? w name dir = some path ∧ PathText.isAbsolute path = true ∧
      PathText.pieces path = front ++ [name] ∧
      front.filter PathText.leads = w.origin dir ++ PathText.trail dir := by
  obtain ⟨front, hpieces, hfront⟩ := PathText.exists_pieces_join dir hname
  cases habsolute : PathText.isAbsolute dir with
  | true =>
    refine ⟨PathText.join dir name, front, ?_, PathText.isAbsolute_join habsolute, hpieces, ?_⟩
    · simp [candidate?, habsolute]
    · simp [Workspace.origin, habsolute, hfront]
  | false =>
    -- The path is put together from the names of the working directory, the trail of `dir` and the
    -- name, none of which has a slash.
    have htrail : PathText.trail (PathText.join dir name) = PathText.trail dir ++ [name] := by
      rw [PathText.trail_of_pieces hpieces hleads, hfront]
    have hslash : ∀ n ∈ w.home ++ (PathText.trail dir ++ [name]), '/' ∉ n.toList := by
      intro n hn
      rcases List.mem_append.1 hn with hhome | hn
      · exact (hw.isName_home n hhome).2.1
      rcases List.mem_append.1 hn with hdir | hlast
      · exact PathText.slash_not_mem_of_mem_pieces (List.mem_filter.1 hdir).1
      · rw [List.mem_singleton.1 hlast]
        exact hname
    have hpath := PathText.pieces_absolute hslash
    refine ⟨_, "" :: (w.home ++ PathText.trail dir), candidate?_of_relative habsolute htilde,
      ?_, ?_, ?_⟩
    · rw [htrail]
      exact PathText.isAbsolute_iff.2 ⟨_, by simp, hpath⟩
    · rw [htrail, hpath]
      simp
    · have hhome : w.home.filter PathText.leads = w.home :=
        List.filter_eq_self.2 fun n hn => (hw.isName_home n hn).1.leads
      rw [List.filter_cons_of_neg (by decide), List.filter_append, hhome, PathText.trail,
        List.filter_filter]
      simp [Workspace.origin, habsolute]

section

variable {path : String} {front : List String}

/-- A NUL in a path with this trail comes from the directory `dir` or from `name`. -/
private theorem nul_mem_of_trail (hw : w.WellFormed)
    (htrail : PathText.trail path = w.origin dir ++ PathText.trail dir ++ [name]) :
    Char.ofNat 0 ∈ path.toList ↔ Char.ofNat 0 ∈ dir.toList ∨ Char.ofNat 0 ∈ name.toList := by
  have hslash : Char.ofNat 0 ≠ '/' := by decide
  have hdot : Char.ofNat 0 ≠ '.' := by decide
  have horigin : ∀ n ∈ w.origin dir, Char.ofNat 0 ∉ n.toList := by
    unfold Workspace.origin
    split
    · simp
    · exact fun n hn => (hw.isName_home n hn).2.2
  rw [PathText.mem_toList_iff_trail path hslash hdot, htrail,
    PathText.mem_toList_iff_trail dir hslash hdot]
  constructor
  · rintro ⟨piece, hpiece, hnul⟩
    rcases List.mem_append.1 hpiece with hpiece | hlast
    · rcases List.mem_append.1 hpiece with hfirst | hdir
      · exact absurd hnul (horigin piece hfirst)
      · exact .inl ⟨piece, hdir, hnul⟩
    · rw [List.mem_singleton.1 hlast] at hnul
      exact .inr hnul
  · rintro (⟨piece, hpiece, hnul⟩ | hnul)
    · exact ⟨piece, by simp [hpiece], hnul⟩
    · exact ⟨name, by simp, hnul⟩

/-- A path with these pieces leads to what the directory `dir` holds under `name`. -/
theorem locate_of_pieces (hw : w.WellFormed) (hname : PathText.IsNormal name)
    (habsolute : PathText.isAbsolute path = true)
    (hpieces : PathText.pieces path = front ++ [name])
    (hfront : front.filter PathText.leads = w.origin dir ++ PathText.trail dir) (next : Location) :
    w.locate path = .ok next ↔
      Char.ofNat 0 ∉ name.toList ∧ ∃ loc, EntryAt w dir loc ∧ next = loc ++ [name] := by
  have htrail : PathText.trail path = w.origin dir ++ PathText.trail dir ++ [name] := by
    rw [PathText.trail_of_pieces hpieces hname.leads, hfront]
  have hnul := nul_mem_of_trail hw htrail
  have hne : path ≠ "" := by
    rintro rfl
    exact absurd habsolute (by decide)
  -- From the root, the path passes through the place where the directory starts.
  have hfollow : (PathText.pieces path).foldlM w.follow (w.origin path) =
      (PathText.pieces dir ++ [name]).foldlM w.follow (w.origin dir) := by
    have horigin : w.origin path = [] := if_pos habsolute
    rw [hpieces, horigin, Workspace.foldlM_follow_trail, hfront, List.append_assoc,
      Workspace.foldlM_follow_origin hw, PathText.trail, ← Workspace.foldlM_follow_trail]
  rw [Workspace.locate_eq_ok_iff, hfollow, Workspace.foldlM_follow_concat hname, hnul]
  simp only [entryAt_iff hw, not_or]
  constructor
  · rintro ⟨⟨hdir, hlast⟩, -, loc, hloc, hget, rfl⟩
    exact ⟨hlast, loc, ⟨hdir, hloc, hget⟩, rfl⟩
  · rintro ⟨hlast, loc, ⟨hdir, hloc, hget⟩, rfl⟩
    exact ⟨⟨hdir, hlast⟩, hne, loc, hloc, hget, rfl⟩

end

/-- For the directory `dir` of the search path `candidate?` tries one path, which leads to a program
    exactly if the directory `Holds` one. -/
theorem exists_candidate?_isPathIn (hw : w.WellFormed)
    (hname : PathText.IsNormal name) (hslash : '/' ∉ name.toList)
    (htilde : dir.toList.head? ≠ some '~') :
    ∃ path, candidate? w name dir = some path ∧ (w.isProgram path = true ↔ Holds w name dir) ∧
      (Holds w name dir → IsPathIn w name dir path) := by
  obtain ⟨path, front, hcandidate, habsolute, hpieces, hfront⟩ :=
    exists_candidate? hw hslash hname.leads htilde
  have hlocate := locate_of_pieces hw hname habsolute hpieces hfront
  refine ⟨path, hcandidate, ?_, ?_⟩
  · rw [Workspace.isProgram_iff]
    constructor
    · rintro ⟨next, content, hnext, hget⟩
      obtain ⟨-, loc, hloc, rfl⟩ := (hlocate next).1 hnext
      exact ⟨loc, content, hloc, hget⟩
    · rintro ⟨loc, content, hloc, hget⟩
      -- No file has a NUL in its name.
      have hnul := (hw.isName hget name (by simp)).2.2
      exact ⟨_, content, (hlocate _).2 ⟨hnul, loc, hloc, rfl⟩, hget⟩
  · rintro ⟨loc, content, hloc, hget⟩
    have hnul := (hw.isName hget name (by simp)).2.2
    refine ⟨habsolute, ?_, loc, hloc, (hlocate _).2 ⟨hnul, loc, hloc, rfl⟩⟩
    rw [PathText.components_of_isAbsolute habsolute, PathText.filter_components,
      PathText.trail_of_pieces hpieces hname.leads, hfront]

/-- What `candidate?` tries for a directory is a program exactly if the directory `Holds` one. -/
theorem isProgram_of_candidate? (hw : w.WellFormed) (hname : PathText.IsNormal name)
    (hslash : '/' ∉ name.toList) (htilde : dir.toList.head? ≠ some '~') {path : String}
    (hcandidate : candidate? w name dir = some path) :
    w.isProgram path = true ↔ Holds w name dir := by
  obtain ⟨tried, htried, hprogram, -⟩ := exists_candidate?_isPathIn hw hname hslash htilde
  rw [hcandidate] at htried
  rwa [Option.some.inj htried]

/-! ## The search -/

/-- `search` tries `name` in all directories that are listed, in their order. -/
theorem search_eq (hslash : '/' ∉ name.toList) (hdirs : Lists searchPath dirs) :
    search w searchPath name = (dirs.filterMap (candidate? w name)).find? w.isProgram := by
  obtain rfl := lists_iff.1 hdirs
  unfold search
  rw [if_neg (by simpa using hslash)]
  cases searchPath <;> rfl

section

variable (hw : w.WellFormed) (hname : PathText.IsNormal name)
  (hslash : '/' ∉ name.toList) (hdirs : Lists searchPath dirs)
  (htilde : ∀ dir ∈ dirs, dir.toList.head? ≠ some '~')

include hw hname hslash hdirs htilde

/-- `search` finds nothing exactly if no directory `Holds` a program of the name. -/
theorem search_eq_none_iff :
    search w searchPath name = none ↔ ∀ dir ∈ dirs, ¬Holds w name dir := by
  rw [search_eq hslash hdirs, List.find?_eq_none]
  constructor
  · intro h dir hdir hholds
    obtain ⟨path, hcandidate, hprogram, -⟩ :=
      exists_candidate?_isPathIn hw hname hslash (htilde dir hdir)
    exact h path (List.mem_filterMap.2 ⟨dir, hdir, hcandidate⟩) (hprogram.2 hholds)
  · intro h path hpath hprogram
    obtain ⟨dir, hdir, hcandidate⟩ := List.mem_filterMap.1 hpath
    rw [isProgram_of_candidate? hw hname hslash (htilde dir hdir) hcandidate] at hprogram
    exact h dir hdir hprogram

/-- `search` finds the program of the first directory that `Holds` one of the name. -/
theorem exists_search_eq_some {before after : List String} (hsplit : dirs = before ++ dir :: after)
    (hbefore : ∀ d ∈ before, ¬Holds w name d) (hholds : Holds w name dir) :
    ∃ found, search w searchPath name = some found ∧ IsPathIn w name dir found := by
  obtain ⟨found, hcandidate, hprogram, hpath⟩ :=
    exists_candidate?_isPathIn hw hname hslash (htilde dir (by simp [hsplit]))
  refine ⟨found, ?_, hpath hholds⟩
  rw [search_eq hslash hdirs, List.find?_eq_some_iff_append]
  refine ⟨hprogram.2 hholds, before.filterMap (candidate? w name),
    after.filterMap (candidate? w name), ?_, ?_⟩
  · rw [hsplit, List.filterMap_append, List.filterMap_cons_some hcandidate]
  · intro earlier hearlier
    obtain ⟨d, hd, hcandidate'⟩ := List.mem_filterMap.1 hearlier
    have htilde' := htilde d (by simp [hsplit, hd])
    rw [Bool.not_eq_true', ← Bool.not_eq_true,
      isProgram_of_candidate? hw hname hslash htilde' hcandidate']
    exact hbefore d hd

end

/-! ## The tool -/

section

variable {override : Option String} {configured : String} (hset : override ≠ some "")

include hset

/-- `resolve` searches for a bare name. -/
theorem resolve_of_isSingle (h : PathText.IsSingle (override.getD configured)) :
    (resolve w override searchPath configured).value =
      (search w searchPath (override.getD configured)).elim
        (.error (.notInPath (override.getD configured))) .ok := by
  simp only [resolve, hset, if_false, PathText.isBareName_iff.2 h, if_true]
  cases search w searchPath (override.getD configured) <;> rfl

/-- For any path but a bare name, `resolve` only asks that it leads somewhere. -/
theorem resolve_of_not_isSingle (h : ¬PathText.IsSingle (override.getD configured)) :
    (resolve w override searchPath configured).value =
      if w.contains (override.getD configured) then .ok (override.getD configured)
      else .error (.missing (override.getD configured)) := by
  have hbare : PathText.isBareName (override.getD configured) = false := by
    rw [← Bool.not_eq_true, PathText.isBareName_iff]
    exact h
  simp only [resolve, hset, if_false, hbare, Bool.false_eq_true, Logged.value_pure]

end

/-! ## The variable -/

/-- `Wanted configured value? path` says that the tool that is looked for is at `path`, if the
    variable has the value `value?`. -/
inductive Wanted (configured : String) : Option (List UInt8) → String → Prop
  | unset : Wanted configured none configured
  | text (text : String) (h : text ≠ "") :
    Wanted configured (some (Text.Utf8.encode text.toList)) text
  /-- A value that is the encoding of no text is as good as none. -/
  | notUnicode {bytes : List UInt8} (h : ∀ text : String, Text.Utf8.encode text.toList ≠ bytes) :
    Wanted configured (some bytes) configured

section

variable {configured : String} {value? : Option (List UInt8)} {bytes : List UInt8}

theorem override?_encode (text : String) :
    override? (some (Text.Utf8.encode text.toList)) = some text := by
  simp [override?, Text.Utf8.decode?_encode]

theorem override?_eq_none (h : ∀ text : String, Text.Utf8.encode text.toList ≠ bytes) :
    override? (some bytes) = none := by
  cases hdecode : Text.Utf8.decode? bytes with
  | none => simp [override?, hdecode]
  | some cs =>
    have hencode := Text.Utf8.decode?_eq_some_iff_encode.1 hdecode
    exact absurd (by rwa [String.toList_ofList]) (h (String.ofList cs))

private theorem encode_cases (bytes : List UInt8) :
    (∃ text : String, bytes = Text.Utf8.encode text.toList) ∨
      ∀ text : String, Text.Utf8.encode text.toList ≠ bytes := by
  by_cases h : ∃ text : String, Text.Utf8.encode text.toList = bytes
  · obtain ⟨text, rfl⟩ := h
    exact .inl ⟨text, rfl⟩
  · exact .inr (not_exists.1 h)

/-- What is `Wanted` is the override if there is one, and the configured tool otherwise. -/
theorem wanted_iff {path : String} :
    Wanted configured value? path ↔
      override? value? ≠ some "" ∧ (override? value?).getD configured = path := by
  constructor
  · intro h
    cases h with
    | unset => exact ⟨nofun, rfl⟩
    | text _ htext => simp [override?_encode, htext]
    | notUnicode h => simp [override?_eq_none h]
  · rintro ⟨hset, rfl⟩
    cases value? with
    | none => exact .unset
    | some bytes =>
      rcases encode_cases bytes with ⟨text, rfl⟩ | hnot
      · rw [override?_encode] at hset ⊢
        exact .text text fun h => hset (congrArg some h)
      · rw [override?_eq_none hnot]
        exact .notUnicode hnot

/-- The override is empty only if the variable is set to nothing. -/
theorem override?_eq_empty_iff : override? value? = some "" ↔ value? = some [] := by
  constructor
  · intro h
    cases value? with
    | none => exact nomatch h
    | some bytes =>
      rcases encode_cases bytes with ⟨text, rfl⟩ | hnot
      · rw [override?_encode] at h
        rw [Option.some.inj h]
        rfl
      · rw [override?_eq_none hnot] at h
        exact nomatch h
  · rintro rfl
    exact override?_encode ""

theorem toolPath_of_empty (h : value? = some []) :
    (toolPath w value? searchPath configured).value = .error .emptyOverride := by
  rw [toolPath, override?_eq_empty_iff.2 h]
  rfl

/-- `toolPath` searches for the tool that is `Wanted` if it is a bare name. -/
theorem toolPath_of_isSingle {path : String} (h : Wanted configured value? path)
    (hsingle : PathText.IsSingle path) :
    (toolPath w value? searchPath configured).value =
      (search w searchPath path).elim (.error (.notInPath path)) .ok := by
  obtain ⟨hset, rfl⟩ := wanted_iff.1 h
  exact resolve_of_isSingle hset hsingle

/-- `toolPath` takes the tool that is `Wanted` as it is if it is any path but a bare name. -/
theorem toolPath_of_not_isSingle {path : String} (h : Wanted configured value? path)
    (hnot : ¬PathText.IsSingle path) :
    (toolPath w value? searchPath configured).value =
      if w.contains path then .ok path else .error (.missing path) := by
  obtain ⟨hset, rfl⟩ := wanted_iff.1 h
  exact resolve_of_not_isSingle hset hnot

end

/-- Whatever the variable holds, and whatever the configured tool and the files are:

    * a variable that is set to nothing is an error;
    * any other value decides on one path: its text if it is text, and the configured path if it is
      not Unicode or if the variable is not set;
    * a name without slashes is found in the first directory of the search path that holds a program
      of this name, and is not found exactly if there is none;
    * what is not a single name is taken as it is, if there is something at its end, and is an error
      otherwise, whatever the search path is. -/
theorem toolPath_finds_first_program (w : Workspace) (hw : w.WellFormed)
    (value? : Option (List UInt8)) (configured : String) :
    let tool := fun searchPath => (toolPath w value? searchPath configured).value
    (value? = some [] → ∀ searchPath, tool searchPath = .error .emptyOverride) ∧
    (value? ≠ some [] → ∃! path, Wanted configured value? path) ∧
    ∀ path, Wanted configured value? path →
      (PathText.IsSingle path → '/' ∉ path.toList →
        ∀ searchPath dirs, Lists searchPath dirs → (∀ dir ∈ dirs, dir.toList.head? ≠ some '~') →
          ((∃ e, tool searchPath = .error e) ↔ ∀ dir ∈ dirs, ¬Holds w path dir) ∧
          ∀ before dir after, dirs = before ++ dir :: after → (∀ d ∈ before, ¬Holds w path d) →
            Holds w path dir → ∃ found, tool searchPath = .ok found ∧ IsPathIn w path dir found) ∧
      (¬PathText.IsSingle path → ∀ searchPath,
        (w.HasEntry path → tool searchPath = .ok path) ∧
          (¬w.HasEntry path → tool searchPath = .error (.missing path))) := by
  refine ⟨fun h searchPath => toolPath_of_empty h, ?_, ?_⟩
  · intro hset
    refine ⟨(override? value?).getD configured, wanted_iff.2 ⟨?_, rfl⟩, ?_⟩
    · rwa [Ne, override?_eq_empty_iff]
    · intro path hwanted
      exact (wanted_iff.1 hwanted).2.symm
  · intro path hwanted
    constructor
    · intro hsingle hslash searchPath dirs hdirs htilde
      have hname := hsingle.isNormal hslash
      simp only [toolPath_of_isSingle hwanted hsingle]
      constructor
      · rw [← search_eq_none_iff hw hname hslash hdirs htilde]
        cases search w searchPath path <;> simp
      · intro before dir after hsplit hbefore hholds
        obtain ⟨found, hfound, hpath⟩ :=
          exists_search_eq_some hw hname hslash hdirs htilde hsplit hbefore hholds
        exact ⟨found, by rw [hfound, Option.elim_some], hpath⟩
    · intro hnot searchPath
      simp only [toolPath_of_not_isSingle hwanted hnot, ← Workspace.contains_iff]
      exact ⟨fun h => if_pos h, fun h => if_neg h⟩

/-- `Holds` from the location of the directory `dir`. -/
private theorem holds_iff {loc : Location} (hloc : w.locate dir = .ok loc) :
    Holds w name dir ↔ w.get? loc = some .directory ∧
      ∃ content, w.get? (loc ++ [name]) = some (.file true content) := by
  have hne : dir ≠ "" := (Workspace.locate_eq_ok_iff.1 hloc).2.1
  simp only [Holds, EntryAt, hne, false_and, false_or, hloc, Except.ok.injEq]
  constructor
  · rintro ⟨_, content, ⟨rfl, hdirectory⟩, hget⟩
    exact ⟨hdirectory, content, hget⟩
  · rintro ⟨hdirectory, content, hget⟩
    exact ⟨loc, content, ⟨rfl, hdirectory⟩, hget⟩

/-- Three directories below the working directory.  The first one holds a file of the name that
    cannot be started, the second one a directory, and the third one a program. -/
def sampleWorkspace : Workspace where
  home := ["work"]
  entries :=
    [([], .directory), (["work"], .directory), (["work", "old"], .directory),
      (["work", "old", "NaMain"], .file false []), (["work", "sub"], .directory),
      (["work", "sub", "NaMain"], .directory), (["work", "bin"], .directory),
      (["work", "bin", "NaMain"], .file true [])]

/-- A value of the variable that is the encoding of no text. -/
def malformedValue : List UInt8 :=
  Text.Utf8.encode "/opt/".toList ++ 0xFF :: Text.Utf8.encode "/NaMain".toList

private theorem encode_ne_malformedValue (text : String) :
    Text.Utf8.encode text.toList ≠ malformedValue := by
  have hnone : Text.Utf8.decode? malformedValue = none := by decide +kernel
  intro h
  have hdecode := Text.Utf8.decode?_eq_some_iff_encode.2 h
  exact nomatch hnone.symm.trans hdecode

/-- In `sampleWorkspace` the program is found behind the other two, and without its directory there
    is none.  The path in the variable is taken as it is, or missed. -/
theorem toolPath_sampleWorkspace :
    let dirs := some "old:./sub:bin/../bin"
    let bytes (text : String) := some (Text.Utf8.encode text.toList)
    (∃ found, (toolPath sampleWorkspace none dirs "NaMain").value = .ok found ∧
      IsPathIn sampleWorkspace "NaMain" "bin/../bin" found) ∧
    (∃ found, (toolPath sampleWorkspace (some malformedValue) dirs "NaMain").value = .ok found ∧
      IsPathIn sampleWorkspace "NaMain" "bin/../bin" found) ∧
    (∃ e, (toolPath sampleWorkspace none (some "old:./sub") "NaMain").value = .error e) ∧
    (toolPath sampleWorkspace (bytes "./old/NaMain") none "NaMain").value = .ok "./old/NaMain" ∧
    (toolPath sampleWorkspace (bytes "./new") none "NaMain").value = .error (.missing "./new") ∧
    (toolPath sampleWorkspace (some []) none "NaMain").value = .error .emptyOverride := by
  intro dirs bytes
  have hw : sampleWorkspace.WellFormed := ⟨by decide +kernel, by decide +kernel⟩
  have hold : ¬Holds sampleWorkspace "NaMain" "old" := by
    rw [holds_iff (show sampleWorkspace.locate "old" = .ok ["work", "old"] by decide +kernel)]
    rintro ⟨-, content, hget⟩
    cases hget
  have hsub : ¬Holds sampleWorkspace "NaMain" "./sub" := by
    rw [holds_iff (show sampleWorkspace.locate "./sub" = .ok ["work", "sub"] by decide +kernel)]
    rintro ⟨-, content, hget⟩
    cases hget
  have hbin : Holds sampleWorkspace "NaMain" "bin/../bin" :=
    (holds_iff (show sampleWorkspace.locate "bin/../bin" = .ok ["work", "bin"] by
      decide +kernel)).2 ⟨by decide, [], by decide⟩
  have hsingle : PathText.IsSingle "NaMain" := PathText.isBareName_iff.1 (by decide +kernel)
  have hpath : ∀ path : String, PathText.isBareName path = false → ¬PathText.IsSingle path :=
    fun path h hsingle => by simp [PathText.isBareName_iff.2 hsingle] at h
  have hexists : sampleWorkspace.HasEntry "./old/NaMain" :=
    Workspace.contains_iff.1 (by decide +kernel)
  have hmissing : ¬sampleWorkspace.HasEntry "./new" := fun h =>
    absurd (Workspace.contains_iff.2 h) (by decide +kernel)
  have hlists : Lists dirs ["old", "./sub", "bin/../bin"] := lists_iff.2 (by decide +kernel)
  -- The configured name is looked for if the variable is not set, and also if it is malformed.
  have hname (value? : Option (List UInt8)) (h : Wanted "NaMain" value? "NaMain") :=
    ((toolPath_finds_first_program sampleWorkspace hw value? "NaMain").2.2 _ h).1 hsingle
      (by decide +kernel)
  have hgiven (text : String) (h : text ≠ "") :=
    ((toolPath_finds_first_program sampleWorkspace hw (bytes text) "NaMain").2.2 _ (.text text h)).2
  refine ⟨?_, ?_, ?_, ?_, ?_, ?_⟩
  · exact (hname none .unset _ _ hlists (by decide +kernel)).2 ["old", "./sub"] _ [] rfl
      (by simp [hold, hsub]) hbin
  · exact (hname _ (.notUnicode encode_ne_malformedValue) _ _ hlists (by decide +kernel)).2
      ["old", "./sub"] _ [] rfl (by simp [hold, hsub]) hbin
  · exact (hname none .unset _ ["old", "./sub"] (lists_iff.2 (by decide +kernel))
      (by decide +kernel)).1.2 (by simp [hold, hsub])
  · exact (hgiven "./old/NaMain" (by decide) (hpath _ (by decide +kernel)) none).1 hexists
  · exact (hgiven "./new" (by decide) (hpath _ (by decide +kernel)) none).2 hmissing
  · exact (toolPath_finds_first_program sampleWorkspace hw (some []) "NaMain").1 rfl none

/-- The variable is set to `malformedValue`, and not to nothing, and still the configured tool is
    found: neither is the value returned, nor is there an error that there is nothing at its end. -/
theorem toolPath_ignores_malformedValue :
    malformedValue ≠ [] ∧
    (toolPath sampleWorkspace (some malformedValue) none "./bin/NaMain").value =
      .ok "./bin/NaMain" ∧
    Text.Utf8.encode "./bin/NaMain".toList ≠ malformedValue := by
  decide +kernel

end ToolLookup

end MapperSweep
