import MapperSweep.PathText
import MapperSweep.Proofs.Text

/-!
# Pieces and components of paths

A path is put together from its pieces, and all that matters of it is its *trail*: the pieces that
lead somewhere.  Here the ways of writing paths are said in terms of pieces and trails.

## Key results

- `pieces_eq_iff`: the pieces of a path are those that it is put together from
- `isAbsolute_iff`: a path starts at the root if there is nothing before its first slash
- `isBareName_iff`: a bare name is a name with nothing after it but slashes and dots
- `exists_pieces_join`, `pieces_absolute`: the pieces of paths that are put together
- `components_cases`: the components of a path are its trail, after a dot if it starts with one
-/

namespace MapperSweep.PathText

/-- `leads piece` holds if the piece leads somewhere: it is neither empty nor a dot. -/
def leads (piece : String) : Bool := piece != "" && piece != "."

/-- The pieces of `path` that lead somewhere. -/
def trail (path : String) : List String := (pieces path).filter leads

/-- `IsNormal piece` holds if the piece is a name, and none of the signs for a directory itself and
    for the one above. -/
def IsNormal (piece : String) : Prop := piece ≠ "" ∧ piece ≠ "." ∧ piece ≠ ".."

/-- `IsSingle path` holds if the path is a single name.  Slashes and dots after it do not lead
    anywhere else. -/
def IsSingle (path : String) : Prop :=
  ∃ name rest, pieces path = name :: rest ∧ IsNormal name ∧
    ∀ piece ∈ rest, piece = "" ∨ piece = "."

section

variable {path dir name piece : String}

theorem leads_eq_false_iff : leads piece = false ↔ piece = "" ∨ piece = "." := by
  simp only [leads, Bool.and_eq_false_iff, bne_eq_false_iff_eq]

theorem leads_iff : leads piece = true ↔ piece ≠ "" ∧ piece ≠ "." := by
  simp only [leads, Bool.and_eq_true, bne_iff_ne]

theorem IsNormal.leads (h : IsNormal piece) : leads piece = true := leads_iff.2 ⟨h.1, h.2.1⟩

/-! ## Pieces -/

/-- The pieces of `path` are those that it is put together from. -/
theorem pieces_eq_iff {ps : List String} :
    pieces path = ps ↔
      ps ≠ [] ∧ (∀ piece ∈ ps, '/' ∉ piece.toList) ∧ path = "/".intercalate ps :=
  Text.map_splitOnChar_eq_iff rfl

theorem pieces_of_not_mem (h : '/' ∉ path.toList) : pieces path = [path] := by
  rw [pieces, Text.splitOnChar_of_not_mem h, List.map_singleton, String.ofList_toList]

theorem slash_not_mem_of_mem_pieces (h : piece ∈ pieces path) : '/' ∉ piece.toList :=
  (pieces_eq_iff.1 rfl).2.1 piece h

/-- At a slash the pieces of `front` end and those of `back` begin. -/
theorem pieces_append_slash (front back : String) :
    pieces (front ++ "/" ++ back) = pieces front ++ pieces back := by
  have hslash : "/".toList = ['/'] := rfl
  rw [pieces, pieces, pieces, String.toList_append, String.toList_append, hslash, List.append_assoc,
    List.singleton_append, Text.splitOnChar_append, List.map_append]

/-- The characters of `path` are those of its pieces, slashes apart. -/
theorem mem_toList_iff {c : Char} (hc : c ≠ '/') :
    c ∈ path.toList ↔ ∃ piece ∈ pieces path, c ∈ piece.toList := by
  have hmem : ∀ ps : List (List Char), c ∈ ['/'].intercalate ps ↔ ∃ p ∈ ps, c ∈ p := by
    intro ps
    induction ps with
    | nil => simp
    | cons p ps ih =>
      cases ps with
      | nil => simp
      | cons q qs =>
        rw [List.intercalate_cons_cons, List.mem_append, List.mem_append, ih]
        simp [hc]
  have hslash : "/".toList = ['/'] := rfl
  have hpath := (pieces_eq_iff.1 (rfl : pieces path = pieces path)).2.2
  rw [hpath, String.toList_intercalate, hslash, hmem, ← hpath]
  simp

/-- The `trail` of a path has all characters of it but slashes and dots. -/
theorem mem_toList_iff_trail (path : String) {c : Char} (hslash : c ≠ '/') (hdot : c ≠ '.') :
    c ∈ path.toList ↔ ∃ piece ∈ trail path, c ∈ piece.toList := by
  rw [mem_toList_iff hslash]
  constructor
  · rintro ⟨piece, hpiece, hc⟩
    refine ⟨piece, List.mem_filter.2 ⟨hpiece, leads_iff.2 ⟨?_, ?_⟩⟩, hc⟩
    · rintro rfl
      simp at hc
    · rintro rfl
      simp [hdot] at hc
  · rintro ⟨piece, hpiece, hc⟩
    exact ⟨piece, (List.mem_filter.1 hpiece).1, hc⟩

/-- A last piece that `leads` somewhere is the end of the trail. -/
theorem trail_of_pieces {front : List String} (hpieces : pieces path = front ++ [name])
    (hleads : leads name = true) : trail path = front.filter leads ++ [name] := by
  rw [trail, hpieces, List.filter_append, List.filter_cons_of_pos hleads, List.filter_nil]

/-- A path starts at the root if there is nothing before its first slash: the first one of its
    `pieces` is empty. -/
theorem isAbsolute_iff : isAbsolute path = true ↔ ∃ rest, rest ≠ [] ∧ pieces path = "" :: rest := by
  constructor
  · intro h
    obtain ⟨cs, hcs⟩ := List.head?_eq_some_iff.1 (beq_iff_eq.1 h)
    have hpath : path = "" ++ "/" ++ String.ofList cs := by
      rw [← String.toList_inj, hcs]
      simp
    refine ⟨pieces (String.ofList cs), (pieces_eq_iff.1 rfl).1, ?_⟩
    rw [hpath, pieces_append_slash]
    rfl
  · rintro ⟨rest, hne, hpieces⟩
    obtain ⟨-, -, rfl⟩ := pieces_eq_iff.1 hpieces
    cases rest with
    | nil => exact absurd rfl hne
    | cons piece rest =>
      rw [isAbsolute, String.toList_intercalate, List.map_cons, List.map_cons,
        List.intercalate_cons_cons]
      rfl

/-- The first piece of a path that does not start at the root begins as the path does. -/
theorem head?_pieces (hne : path ≠ "") (h : isAbsolute path = false) :
    ∃ first rest, pieces path = first :: rest ∧ first ≠ "" ∧
      first.toList.head? = path.toList.head? := by
  cases hcs : path.toList with
  | nil => exact absurd (String.toList_eq_nil_iff.1 hcs) hne
  | cons c cs =>
    have hc : c ≠ '/' := by
      rintro rfl
      rw [isAbsolute, hcs] at h
      simp at h
    cases hrest : Text.splitOnChar '/' cs with
    | nil =>
      rw [Text.splitOnChar_eq_splitOn] at hrest
      exact absurd hrest (List.splitOn_ne_nil '/' cs)
    | cons piece rest =>
      refine ⟨String.ofList (c :: piece), rest.map String.ofList, ?_, ?_, ?_⟩
      · rw [pieces, hcs, Text.splitOnChar, if_neg hc, hrest]
        rfl
      · intro hempty
        have hlist := congrArg String.toList hempty
        simp at hlist
      · simp

/-! ## Components -/

/-- The components of `path` are its `trail`, after a dot if it starts with one. -/
theorem components_cases (path : String) :
    (components path = trail path ∧ (trail path).head? ≠ some ".") ∨
      components path = "." :: trail path := by
  unfold components trail
  split
  · rename_i rest hpieces
    right
    rw [hpieces, List.filter_cons_of_neg (by decide)]
    rfl
  · left
    refine ⟨rfl, ?_⟩
    intro hhead
    have hmem := List.mem_of_mem_head? hhead
    simp [leads] at hmem

/-- A path that starts at the root has its `trail` as components. -/
theorem components_of_isAbsolute (h : isAbsolute path = true) : components path = trail path := by
  obtain ⟨rest, -, hpieces⟩ := isAbsolute_iff.1 h
  simp only [components, trail, hpieces]
  rfl

/-- Leaving out the dots of `components path` leaves the trail. -/
theorem filter_components (path : String) : (components path).filter (· != ".") = trail path := by
  have htrail : (trail path).filter (· != ".") = trail path := by
    rw [List.filter_eq_self]
    intro piece hpiece
    exact bne_iff_ne.2 (leads_iff.1 (List.mem_filter.1 hpiece).2).2
  rcases components_cases path with ⟨h, -⟩ | h
  · rw [h, htrail]
  · rw [h, List.filter_cons_of_neg (by decide), htrail]

/-- A path that does not start at the root has its first piece as first component. -/
theorem components_of_pieces {first : String} {rest : List String}
    (hpieces : pieces path = first :: rest) (hfirst : first ≠ "") :
    components path = first :: rest.filter leads := by
  unfold components
  split
  · rename_i tail hdot
    rw [hpieces] at hdot
    obtain ⟨rfl, rfl⟩ := List.cons.inj hdot
    rfl
  · rename_i hdot
    have hleads : leads first = true := leads_iff.2 ⟨hfirst, fun h => hdot rest (h ▸ hpieces)⟩
    rw [hpieces]
    exact List.filter_cons_of_pos hleads

/-- A tilde as first component is what `path` begins with. -/
theorem head?_of_tilde (h : isAbsolute path = false) (htilde : (components path).head? = some "~") :
    path.toList.head? = some '~' := by
  by_cases hne : path = ""
  · subst hne
    simp [components, pieces, Text.splitOnChar] at htilde
  · obtain ⟨first, rest, hpieces, hfirst, hhead⟩ := head?_pieces hne h
    rw [components_of_pieces hpieces hfirst, List.head?_cons] at htilde
    rw [← hhead, Option.some.inj htilde]
    rfl

theorem IsSingle.isNormal (h : IsSingle path) (hslash : '/' ∉ path.toList) : IsNormal path := by
  obtain ⟨name, rest, hpieces, hname, -⟩ := h
  rw [pieces_of_not_mem hslash] at hpieces
  rwa [(List.cons.inj hpieces).1]

/-- `isBareName` holds of a name with nothing after it but slashes and dots. -/
theorem isBareName_iff : isBareName path = true ↔ IsSingle path := by
  by_cases hne : path = ""
  · subst hne
    simp [isBareName, components, IsSingle, IsNormal, pieces, Text.splitOnChar]
  cases habsolute : isAbsolute path with
  | true =>
    obtain ⟨rest, -, hpieces⟩ := isAbsolute_iff.1 habsolute
    simp [isBareName, habsolute, IsSingle, IsNormal, hpieces]
  | false =>
    obtain ⟨first, rest, hpieces, hfirst, -⟩ := head?_pieces hne habsolute
    -- No second component is left exactly if nothing after the first piece leads anywhere.
    have hrest : rest.filter leads = [] ↔ ∀ piece ∈ rest, piece = "" ∨ piece = "." := by
      simp only [List.filter_eq_nil_iff, Bool.not_eq_true, leads_eq_false_iff]
    simp only [isBareName, habsolute, Bool.not_false, Bool.true_and, IsSingle, hpieces,
      List.cons.injEq, components_of_pieces hpieces hfirst]
    cases hfilter : rest.filter leads with
    | nil =>
      simp only [Bool.and_eq_true, bne_iff_ne]
      constructor
      · rintro ⟨hdot, hparent⟩
        exact ⟨first, rest, ⟨rfl, rfl⟩, ⟨hfirst, hdot, hparent⟩, hrest.1 hfilter⟩
      · rintro ⟨_, _, ⟨rfl, rfl⟩, ⟨-, hdot, hparent⟩, -⟩
        exact ⟨hdot, hparent⟩
    | cons piece pieces =>
      simp only [Bool.false_eq_true, false_iff]
      rintro ⟨_, _, ⟨rfl, rfl⟩, -, hall⟩
      rw [hrest.2 hall] at hfilter
      cases hfilter

/-! ## Paths that are put together -/

/-- The pieces of `join dir name` are `name` after pieces with the trail of `dir`. -/
theorem exists_pieces_join (dir : String) (hname : '/' ∉ name.toList) :
    ∃ front, pieces (join dir name) = front ++ [name] ∧ front.filter leads = trail dir := by
  unfold join
  by_cases hempty : dir.isEmpty = true
  · rw [if_pos hempty]
    obtain rfl := String.isEmpty_iff.1 hempty
    exact ⟨[], pieces_of_not_mem hname, rfl⟩
  rw [if_neg hempty]
  by_cases hslash : dir.toList.getLast? = some '/'
  · rw [if_pos hslash]
    -- The directory ends with an empty piece, whose place the name takes.
    obtain ⟨cs, hcs⟩ := List.getLast?_eq_some_iff.1 hslash
    obtain rfl : dir = String.ofList cs ++ "/" ++ "" := by
      rw [← String.toList_inj, hcs]
      simp
    refine ⟨pieces (String.ofList cs), ?_, ?_⟩
    · rw [String.append_empty, pieces_append_slash, pieces_of_not_mem hname]
    · rw [trail, pieces_append_slash, List.filter_append]
      simp [pieces, Text.splitOnChar, leads]
  · rw [if_neg hslash]
    exact ⟨pieces dir, by rw [pieces_append_slash, pieces_of_not_mem hname], rfl⟩

/-- `join dir name` starts at the root if `dir` does. -/
theorem isAbsolute_join (h : isAbsolute dir = true) : isAbsolute (join dir name) = true := by
  obtain ⟨cs, hcs⟩ := List.head?_eq_some_iff.1 (beq_iff_eq.1 h)
  have hne : dir.isEmpty = false := by
    rw [← Bool.not_eq_true, String.isEmpty_iff]
    rintro rfl
    cases hcs
  rw [join, if_neg (by simp [hne])]
  split <;> simp [isAbsolute, hcs]

/-- `absolute names` has a slash before each of the names. -/
theorem absolute_eq_intercalate (names : List String) :
    absolute names = "/".intercalate ("" :: names) := by
  have hfrom : ∀ start : String, names.foldl (fun s name => s ++ "/" ++ name) start =
      "/".intercalate (start :: names) := by
    induction names with
    | nil => intro start; rw [List.foldl_nil, String.intercalate_singleton]
    | cons name names ih =>
      intro start
      rw [List.foldl_cons, ih, String.intercalate_cons_append, String.intercalate_cons_cons]
  exact hfrom ""

/-- The pieces of `absolute names` are the names, after an empty one. -/
theorem pieces_absolute {names : List String} (h : ∀ n ∈ names, '/' ∉ n.toList) :
    pieces (absolute names) = "" :: names := by
  rw [pieces_eq_iff]
  refine ⟨by simp, ?_, absolute_eq_intercalate names⟩
  intro piece hpiece
  rcases List.mem_cons.1 hpiece with rfl | hpiece
  · simp
  · exact h piece hpiece

end

end MapperSweep.PathText
