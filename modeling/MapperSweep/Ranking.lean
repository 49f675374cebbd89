import MapperSweep.Log

/-!
# Ranking

Records are grouped by benchmark, and the groups stand in the order in which their benchmarks first
occur.  Within a group a larger fidelity comes first, by the total order of binary64 numbers, and
records without a fidelity come last.  Records of equal rank keep their order.
-/

namespace MapperSweep

/-- Whether `a` may stand before `b` in a ranked group. -/
def Record.ranksBefore (a b : Record) : Bool :=
  match a.metrics.fidelity, b.metrics.fidelity with
  | some x, some y => y.key ≤ x.key
  | some _, none => true
  | none, some _ => false
  | none, none => true

namespace Group

/-- Adds the record `r` at the end of the group of its benchmark, which is a new one if there is
    none. -/
def insert (r : Record) : List Group → List Group
  | [] => [{ benchmark := r.benchmark, records := [r] }]
  | g :: gs =>
    if g.benchmark = r.benchmark then { g with records := g.records ++ [r] } :: gs
    else g :: insert r gs

/-- The records `rs` by benchmark, unranked. -/
def collect (rs : List Record) : List Group := rs.foldl (fun gs r => insert r gs) []

/-- The group `g` with its records in the order of `Record.ranksBefore`. -/
def ranked (g : Group) : Group := { g with records := g.records.mergeSort Record.ranksBefore }

end Group

/-- The ranked groups of the records `rs`, in the order in which their benchmarks first occur. -/
def rank (rs : List Record) : List Group := (Group.collect rs).map Group.ranked

/-- What is logged about the record `r` when it is ranked. -/
def Record.rankingNote (r : Record) : Option Event :=
  match r.metrics.fidelity with
  | some _ => none
  | none => some (.unrankedResult r.benchmark r.runIndex)

/-- The same as `rank`.  Every record without a fidelity is logged. -/
def rankLogged (rs : List Record) : Logged (List Group) where
  value := rank rs
  log := rs.filterMap Record.rankingNote

/-- The best record of each group in `gs` that is not empty. -/
def bestPerGroup (gs : List Group) : List Record := gs.filterMap Group.best?

end MapperSweep
