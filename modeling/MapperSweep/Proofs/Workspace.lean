import MapperSweep.Proofs.Text
import MapperSweep.Workspace

/-!
# Adding to a file

A path leads to the same location before and after a file is written, because every directory on
the way is still there.  So what was added to a file is found under the same path again, after what
was there before.

## Key results

- `locate_set`: writing a file does not change where paths lead
- `exists_append_of_read`: what can be read can be added to
- `append_eq_ok`: adding to a file changes the end of that file and nothing else
- `exists_append_of_printsTo`, `printsTo_of_not_contains`: a file that is the standard output
-/

namespace MapperSweep.Workspace

/-- The content of the file at the end of `path`, empty where there is no file yet. -/
def contentOrEmpty (w : Workspace) (path : String) : List UInt8 := (w.read path).toOption.getD []

/-! ## Where paths lead -/

/-- `follow` looks at a directory, which is not the place `target` that is written to. -/
private theorem follow_set {w : Workspace} {target loc next : Location} {piece : String} (e : Entry)
    (htarget : w.get? target ≠ some .directory) (h : w.follow loc piece = .ok next) :
    (w.set target e).follow loc piece = .ok next := by
  cases hw : w.get? loc with
  | none => simp only [follow, hw] at h; exact nomatch h
  | some entry =>
    cases entry with
    | file executable content => simp only [follow, hw] at h; exact nomatch h
    | directory =>
      -- The place that is looked at is a directory, and the target is none.
      have hne : loc ≠ target := by
        intro heq
        subst heq
        exact htarget hw
      simp only [follow, hw] at h
      simp only [follow, get?_set_of_ne w hne e, hw]
      exact h

/-- Following all `pieces` of a path, one after the other, after `target` was written to. -/
private theorem foldlM_follow_set {w : Workspace} {target loc last : Location} (e : Entry)
    (htarget : w.get? target ≠ some .directory) (pieces : List String)
    (h : pieces.foldlM w.follow loc = .ok last) :
    pieces.foldlM (w.set target e).follow loc = .ok last := by
  induction pieces generalizing loc with
  | nil => exact h
  | cons piece pieces ih =>
    simp only [List.foldlM_cons, bind, Except.bind] at h ⊢
    cases hf : w.follow loc piece with
    | error err => simp only [hf] at h; exact nomatch h
    | ok next =>
      simp only [hf] at h
      simp only [follow_set e htarget hf]
      exact ih h

/-- Writing a file at `target` does not change where paths lead. -/
theorem locate_set {w : Workspace} {target loc : Location} {path : String} (e : Entry)
    (htarget : w.get? target ≠ some .directory) (h : w.locate path = .ok loc) :
    (w.set target e).locate path = .ok loc := by
  simp only [locate] at h ⊢
  split at h
  · exact nomatch h
  · rename_i hnul
    split at h
    · exact nomatch h
    · rename_i hempty
      rw [if_neg hnul, if_neg hempty]
      exact foldlM_follow_set e htarget _ h

/-- A file that can be opened for writing is where its `path` leads. -/
theorem locate_of_locateFile {w : Workspace} {path : String} {loc : Location}
    (h : w.locateFile path = .ok loc) : w.locate path = .ok loc := by
  simp only [locateFile, bind, Except.bind] at h
  split at h
  · split at h
    · split at h <;> exact nomatch h
    · exact nomatch h
  · exact h

/-- `read` gives the content of the file to which `path` leads. -/
theorem read_of_get? {w : Workspace} {path : String} {loc : Location} {executable : Bool}
    {content : List UInt8} (hloc : w.locate path = .ok loc)
    (h : w.get? loc = some (.file executable content)) : w.read path = .ok content := by
  simp [read, find, hloc, h, bind, Except.bind]

/-- A path with a slash at its end leads to a directory. -/
private theorem get?_of_slash {w : Workspace} {path : String} {loc : Location}
    (hslash : path.toList.getLast? = some '/') (h : w.locate path = .ok loc) :
    w.get? loc = some .directory := by
  obtain ⟨front, hfront⟩ := List.getLast?_eq_some_iff.1 hslash
  have hpieces : PathText.pieces path =
      (Text.splitOnChar '/' front).map String.ofList ++ [""] := by
    rw [PathText.pieces, hfront, Text.splitOnChar_append, List.map_append]
    rfl
  simp only [locate] at h
  split at h
  · cases h
  split at h
  · cases h
  rw [hpieces, List.foldlM_append] at h
  simp only [List.foldlM_cons, List.foldlM_nil, bind, Except.bind] at h
  -- The last piece is empty and stays in the directory that the others lead to.
  split at h
  · cases h
  · rename_i last hlast
    split at h
    · cases h
    · rename_i next hnext
      obtain rfl := Except.ok.inj h
      rw [follow] at hnext
      split at hnext
      · cases hnext
      · cases hnext
      · rename_i hdirectory
        rw [if_pos (.inl rfl)] at hnext
        rw [← Except.ok.inj hnext, hdirectory]

/-- A file that can be read can be opened for writing, see `locateFile`. -/
theorem locateFile_of_read {w : Workspace} {path : String} {content : List UInt8}
    (h : w.read path = .ok content) :
    ∃ loc executable, w.locateFile path = .ok loc ∧
      w.get? loc = some (.file executable content) := by
  cases hloc : w.locate path with
  | error e => simp [read, find, hloc, bind, Except.bind] at h
  | ok loc =>
    cases hget : w.get? loc with
    | none => simp [read, find, hloc, hget, bind, Except.bind] at h
    | some entry =>
      cases entry with
      | directory => simp [read, find, hloc, hget, bind, Except.bind] at h
      | file executable found =>
        rw [read_of_get? hloc hget] at h
        obtain rfl := Except.ok.inj h
        refine ⟨loc, executable, ?_, hget⟩
        have hslash : path.toList.getLast? ≠ some '/' := by
          intro hslash
          rw [get?_of_slash hslash hloc] at hget
          cases hget
        have htrimmed : String.ofList (Text.dropTrailing '/' path.toList) = path := by
          rw [Text.dropTrailing_of_getLast?_ne hslash, String.ofList_toList]
        simp only [locateFile, htrimmed]
        simpa using hloc

/-! ## Adding to a file -/

/-- Where there is nothing at the end of `path`, there is no content either. -/
theorem contentOrEmpty_of_get?_none {w : Workspace} {path : String} {loc : Location}
    (hloc : w.locate path = .ok loc) (h : w.get? loc = none) : w.contentOrEmpty path = [] := by
  simp [contentOrEmpty, read, find, hloc, h, bind, Except.bind, Except.toOption]

theorem contentOrEmpty_of_not_contains {w : Workspace} {path : String}
    (h : w.contains path = false) : w.contentOrEmpty path = [] := by
  simp only [contains] at h
  simp only [contentOrEmpty, read, bind, Except.bind]
  cases hfind : w.find path with
  | error e => rfl
  | ok entry =>
    rw [hfind] at h
    exact nomatch h

/-- What can be read can be added to by `append`. -/
theorem exists_append_of_read {w : Workspace} {path : String} {content : List UInt8}
    (h : w.read path = .ok content) (bytes : List UInt8) :
    ∃ w', w.append path bytes = .ok w' := by
  obtain ⟨loc, executable, hloc, hget⟩ := locateFile_of_read h
  refine ⟨w.set loc (.file executable (content ++ bytes)), ?_⟩
  simp only [append, hloc, hget, bind, Except.bind]

/-- `append` puts the new bytes after the old ones, and leaves every other location as it was. -/
theorem append_eq_ok {w w' : Workspace} {path : String} {bytes : List UInt8}
    (h : w.append path bytes = .ok w') :
    ∃ loc, w.locate path = .ok loc ∧
      w'.read path = .ok (w.contentOrEmpty path ++ bytes) ∧
      ∀ other, other ≠ loc → w'.get? other = w.get? other := by
  simp only [append, bind, Except.bind] at h
  cases hfile : w.locateFile path with
  | error e => simp only [hfile] at h; exact nomatch h
  | ok loc =>
    have hloc := locate_of_locateFile hfile
    simp only [hfile] at h
    -- In both cases that succeed the new file is written to a place that is no directory.
    have written : ∀ executable content, w' = w.set loc (.file executable content) →
        w.get? loc ≠ some .directory →
        w'.read path = .ok content ∧ ∀ other, other ≠ loc → w'.get? other = w.get? other := by
      rintro executable content rfl hne
      exact ⟨read_of_get? (locate_set _ hne hloc) (get?_set_self w loc _),
        fun other hother => get?_set_of_ne w hother _⟩
    cases hget : w.get? loc with
    | none =>
      simp only [hget, Except.ok.injEq] at h
      obtain ⟨hread, hframe⟩ := written false bytes h.symm (by simp [hget])
      exact ⟨loc, hloc, by rw [hread, contentOrEmpty_of_get?_none hloc hget]; rfl, hframe⟩
    | some entry =>
      cases entry with
      | directory => simp only [hget] at h; exact nomatch h
      | file executable content =>
        simp only [hget, Except.ok.injEq] at h
        obtain ⟨hread, hframe⟩ := written executable (content ++ bytes) h.symm (by simp [hget])
        have hold : w.contentOrEmpty path = content := by
          simp [contentOrEmpty, read_of_get? hloc hget, Except.toOption]
        exact ⟨loc, hloc, by rw [hread, hold], hframe⟩

/-! ## The standard output among the files -/

/-- A file that is the standard output can always be written to. -/
theorem exists_append_of_printsTo {w : Workspace} {path : String} (h : w.printsTo path = true)
    (bytes : List UInt8) : ∃ w', w.append path bytes = .ok w' := by
  unfold printsTo at h
  split at h
  · cases h
  · rename_i loc hloc
    split at h
    · rename_i executable content hget
      refine ⟨w.set loc (.file executable (content ++ bytes)), ?_⟩
      simp only [append, hloc, hget, bind, Except.bind]
    · cases h

theorem printsTo_of_not_contains {w : Workspace} {path : String} (h : w.contains path = false) :
    w.printsTo path = false := by
  unfold printsTo
  split
  · rfl
  · rename_i loc hloc
    split
    · rename_i hget
      rw [contains, find, locate_of_locateFile hloc] at h
      simp only [bind, Except.bind, hget] at h
      cases h
    · rfl

end MapperSweep.Workspace
