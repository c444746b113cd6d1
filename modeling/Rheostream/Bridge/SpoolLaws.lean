import Mathlib.Data.List.Induction
import Mathlib.Data.List.TakeWhile
import Rheostream.Bridge.Spool

/-!
# Cutting the spool

Whatever way the lines of a spool file are cut into passes, the passes write what one pass over
all of them writes, but for two columns that follow the passes: when a session was first seen, and
when it ended if its ends do not come in order.
-/

namespace Rheostream.Bridge

/-! ## The lines of one session -/

/-- What a line says of its session, with its time. -/
structure Sight where
  isEnd : Bool
  transcriptPath : PyStr
  seenAt : ℤ

/-- The sighting that lines add up to. -/
def gather (sighting : Option Sighting) (sights : List Sight) : Option Sighting :=
  sights.foldl (fun sighting l => some (Sighting.join l.isEnd l.transcriptPath l.seenAt sighting))
    sighting

/-- The ends among the lines, as they are recorded. -/
def ends (sights : List Sight) : List ℤ := (sights.filter Sight.isEnd).map fun l => max 0 l.seenAt

theorem gather_append (sighting : Option Sighting) (a b : List Sight) :
    gather sighting (a ++ b) = gather (gather sighting a) b := List.foldl_append

theorem ends_append (a b : List Sight) : ends (a ++ b) = ends a ++ ends b := by
  rw [ends, List.filter_append, List.map_append]
  rfl

/-- The greatest of some integers. -/
theorem max?_append_singleton (l : List ℤ) (x : ℤ) :
    (l ++ [x]).max? = some ((l.max?).elim x (max · x)) := by
  cases hmax : l.max? with
  | none =>
    obtain rfl := List.max?_eq_none_iff.mp hmax
    rfl
  | some m =>
    obtain ⟨hmem, hle⟩ := List.max?_eq_some_iff.mp hmax
    refine List.max?_eq_some_iff.mpr ⟨?_, ?_⟩
    · rw [Option.elim_some, List.mem_append, List.mem_singleton]
      rcases max_choice m x with hm | hx
      · exact Or.inl (by rw [hm]; exact hmem)
      · exact Or.inr hx
    · intro y hy
      rw [Option.elim_some]
      rcases List.mem_append.mp hy with hy | hy
      · have hy' := hle y hy
        omega
      · have hy' := List.mem_singleton.mp hy
        omega

/-- What the lines of a session add up to. -/
structure Gathers (sights : List Sight) (sighting : Sighting) : Prop where
  path : (sights.getLast?).map Sight.transcriptPath = some sighting.transcriptPath
  seen : (sights.map Sight.seenAt).max? = some sighting.seenAt
  ended : sighting.endedAt = (ends sights).max?

theorem join_path (isEnd : Bool) (path : PyStr) (t : ℤ) (sighting : Option Sighting) :
    (Sighting.join isEnd path t sighting).transcriptPath = path := by
  cases isEnd with
  | true => cases sighting with | none => rfl | some s => rfl
  | false => cases sighting with | none => rfl | some s => rfl

theorem join_seen (isEnd : Bool) (path : PyStr) (t : ℤ) (sighting : Option Sighting) :
    (Sighting.join isEnd path t sighting).seenAt =
      (sighting.map Sighting.seenAt).elim t (max · t) := by
  cases isEnd with
  | true => cases sighting with | none => rfl | some s => rfl
  | false => cases sighting with | none => rfl | some s => rfl

theorem join_ended (isEnd : Bool) (path : PyStr) (t : ℤ) (sighting : Option Sighting) :
    (Sighting.join isEnd path t sighting).endedAt =
      if isEnd then some (max ((sighting.bind Sighting.endedAt).getD 0) t)
      else sighting.bind Sighting.endedAt := by
  cases isEnd with
  | true => cases sighting with | none => rfl | some s => rfl
  | false => cases sighting with | none => rfl | some s => rfl

variable {sights : List Sight}

theorem nonneg_of_mem_ends {e : ℤ} (h : e ∈ ends sights) : 0 ≤ e := by
  obtain ⟨l, -, rfl⟩ := List.mem_map.mp h
  exact Int.le_max_left 0 l.seenAt

theorem Gathers.snoc {sighting : Option Sighting} (l : Sight)
    (hseen : (sights.map Sight.seenAt).max? = sighting.map Sighting.seenAt)
    (hended : sighting.bind Sighting.endedAt = (ends sights).max?) :
    Gathers (sights ++ [l]) (Sighting.join l.isEnd l.transcriptPath l.seenAt sighting) where
  path := by rw [join_path, List.getLast?_concat, Option.map_some]
  seen := by
    rw [join_seen, List.map_append, List.map_singleton, max?_append_singleton, hseen]
  ended := by
    rw [join_ended, ends_append, hended]
    cases hend : l.isEnd with
    | false =>
      have hnone : ends [l] = [] := by simp [ends, hend]
      rw [hnone, List.append_nil]
      rfl
    | true =>
      have hone : ends [l] = [max 0 l.seenAt] := by simp [ends, hend]
      rw [hone, max?_append_singleton, if_pos rfl]
      cases hmax : (ends sights).max? with
      | none => rfl
      | some m =>
        have hnonneg := nonneg_of_mem_ends (List.max?_eq_some_iff.mp hmax).1
        rw [Option.getD_some, Option.elim_some]
        congr 1
        omega

/-- Lines add up to their last path, their greatest time and their greatest end. -/
theorem gather_eq_some (h : sights ≠ []) :
    ∃ sighting, gather none sights = some sighting ∧ Gathers sights sighting := by
  have hall : ∀ sights : List Sight,
      (sights.map Sight.seenAt).max? = (gather none sights).map Sighting.seenAt ∧
      (gather none sights).bind Sighting.endedAt = (ends sights).max? ∧
      (sights ≠ [] → ∃ sighting, gather none sights = some sighting ∧ Gathers sights sighting) := by
    intro sights
    induction sights using List.reverseRecOn with
    | nil => exact ⟨rfl, rfl, fun h => absurd rfl h⟩
    | append_singleton sights l ih =>
      have hstep := Gathers.snoc l ih.1 ih.2.1
      have hgather : gather none (sights ++ [l]) =
          some (Sighting.join l.isEnd l.transcriptPath l.seenAt (gather none sights)) :=
        gather_append none sights [l]
      rw [hgather]
      exact ⟨hstep.seen, hstep.ended, fun _ => ⟨_, rfl, hstep⟩⟩
  exact (hall sights).2.2 h

/-! ## The row of one session -/

/-- The row a sighting leaves behind. -/
def rowAfter (row : Option SessionRow) (sighting : Sighting) : SessionRow :=
  match row with
  | none =>
    { transcriptPath := some sighting.transcriptPath, firstSeenAt := some sighting.seenAt,
      lastSeenAt := some sighting.seenAt, endedAt := sighting.endedAt, cursorOffset := 0,
      cursorInode := none, pendingGapKey := none, closedAt := none }
  | some row =>
    match row.closedAt with
    | none =>
      { row with
        transcriptPath := some sighting.transcriptPath
        lastSeenAt := some (row.lastSeenAt.elim sighting.seenAt (max sighting.seenAt ·))
        endedAt := sighting.endedAt.or row.endedAt }
    | some closedAt =>
      if sighting.seenAt < closedAt then row
      else
        { row with
          closedAt := none
          transcriptPath := some sighting.transcriptPath
          lastSeenAt := some sighting.seenAt
          endedAt := sighting.endedAt.filter fun endedAt => !decide (endedAt < closedAt) }

/-- The row after a pass over these lines of its session. -/
def passRow (row : Option SessionRow) (sights : List Sight) : Option SessionRow :=
  match gather none sights with
  | none => row
  | some sighting => some (rowAfter row sighting)

/-- A row but for the two columns that follow the passes. -/
def SessionRow.rest (row : SessionRow) : SessionRow :=
  { row with firstSeenAt := none, endedAt := none }

/-- When a session was closed. -/
def closedOf (row : Option SessionRow) : Option ℤ := row.bind SessionRow.closedAt

/-- When a session is recorded to have ended. -/
def endedOf (row : Option SessionRow) : Option ℤ := row.bind SessionRow.endedAt

theorem passRow_nil (row : Option SessionRow) : passRow row [] = row := rfl

theorem passRow_of_gathers (h : sights ≠ []) (row : Option SessionRow) :
    ∃ sighting, Gathers sights sighting ∧ passRow row sights = some (rowAfter row sighting) := by
  obtain ⟨sighting, hgather, hgathers⟩ := gather_eq_some h
  exact ⟨sighting, hgathers, by rw [passRow, hgather]⟩

variable {a b : List Sight}

/-- The lines of two passes add up to the last path and the greater time. -/
theorem Gathers.append {x y z : Sighting} (ha : Gathers a x) (hb : Gathers b y)
    (hab : Gathers (a ++ b) z) :
    z.transcriptPath = y.transcriptPath ∧ z.seenAt = max x.seenAt y.seenAt := by
  constructor
  · have hpath := hab.path
    have hb' := hb.path
    obtain ⟨l, hl, hy⟩ := Option.map_eq_some_iff.mp hb'
    rw [List.getLast?_append, hl, Option.some_or, Option.map_some, Option.some.injEq] at hpath
    rw [← hpath, hy]
  · obtain ⟨hx, hxle⟩ := List.max?_eq_some_iff.mp ha.seen
    obtain ⟨hy, hyle⟩ := List.max?_eq_some_iff.mp hb.seen
    obtain ⟨hz, hzle⟩ := List.max?_eq_some_iff.mp hab.seen
    rw [List.map_append] at hz hzle
    have hxz := hzle _ (List.mem_append_left _ hx)
    have hyz := hzle _ (List.mem_append_right _ hy)
    rcases List.mem_append.mp hz with hz | hz
    · have hle := hxle _ hz
      omega
    · have hle := hyle _ hz
      omega

/-- Two sightings in turn write what they write together, but for the two columns. -/
theorem rest_rowAfter {x y z : Sighting} (hpath : z.transcriptPath = y.transcriptPath)
    (hseen : z.seenAt = max x.seenAt y.seenAt) (row : Option SessionRow) :
    (rowAfter (some (rowAfter row x)) y).rest = (rowAfter row z).rest := by
  have hmax : max y.seenAt x.seenAt = z.seenAt := by omega
  cases row with
  | none => simp [rowAfter, SessionRow.rest, hpath, hmax]
  | some row =>
    cases hclosed : row.closedAt with
    | none =>
      cases hlast : row.lastSeenAt with
      | none => simp [rowAfter, SessionRow.rest, hclosed, hlast, hpath, hmax]
      | some t =>
        have hmax' : max y.seenAt (max x.seenAt t) = max z.seenAt t := by omega
        simp [rowAfter, SessionRow.rest, hclosed, hlast, hpath, hmax']
    | some closedAt =>
      by_cases hx : x.seenAt < closedAt
      · by_cases hy : y.seenAt < closedAt
        · have hz : z.seenAt < closedAt := by omega
          simp [rowAfter, hclosed, hx, hy, hz]
        · have hz : ¬z.seenAt < closedAt := by omega
          have hsame : y.seenAt = z.seenAt := by omega
          simp [rowAfter, SessionRow.rest, hclosed, hx, hz, hpath, hsame]
      · have hz : ¬z.seenAt < closedAt := by omega
        simp [rowAfter, SessionRow.rest, hclosed, hx, hz, hpath, hmax]

/-- Two passes write what one over both their lines writes, but for the two columns. -/
theorem rest_passRow_append (row : Option SessionRow) (a b : List Sight) :
    (passRow (passRow row a) b).map SessionRow.rest =
      (passRow row (a ++ b)).map SessionRow.rest := by
  by_cases ha : a = []
  · rw [ha, passRow_nil, List.nil_append]
  by_cases hb : b = []
  · rw [hb, passRow_nil, List.append_nil]
  obtain ⟨x, hx, hrow⟩ := passRow_of_gathers ha row
  obtain ⟨y, hy, hrow'⟩ := passRow_of_gathers hb (passRow row a)
  obtain ⟨z, hz, hwhole⟩ := passRow_of_gathers (List.append_ne_nil_of_left_ne_nil ha b) row
  obtain ⟨hpath, hseen⟩ := hx.append hy hz
  rw [hrow', hrow, hwhole, Option.map_some, Option.map_some, rest_rowAfter hpath hseen]

/-- The rows after successive passes. -/
def passesRow (row : Option SessionRow) (passes : List (List Sight)) : Option SessionRow :=
  passes.foldl passRow row

/-- Any passes write what one over all the lines writes, but for the two columns. -/
theorem rest_passesRow (row : Option SessionRow) (passes : List (List Sight)) :
    (passesRow row passes).map SessionRow.rest =
      (passRow row passes.flatten).map SessionRow.rest := by
  induction passes generalizing row with
  | nil => rfl
  | cons a passes ih =>
    rw [List.flatten_cons, ← rest_passRow_append, ← ih]
    rfl

/-- A row that is there keeps when it was first seen. -/
theorem firstSeen_passRow {row : SessionRow} (sights : List Sight) :
    ∃ row', passRow (some row) sights = some row' ∧ row'.firstSeenAt = row.firstSeenAt := by
  by_cases h : sights = []
  · exact ⟨row, by rw [h, passRow_nil], rfl⟩
  · obtain ⟨x, -, hrow⟩ := passRow_of_gathers h (some row)
    refine ⟨_, hrow, ?_⟩
    rw [rowAfter]
    cases row.closedAt with
    | none => rfl
    | some closedAt =>
      dsimp only
      split
      · rfl
      · rfl

theorem firstSeen_passesRow {row : SessionRow} (passes : List (List Sight)) :
    ∃ row', passesRow (some row) passes = some row' ∧ row'.firstSeenAt = row.firstSeenAt := by
  induction passes generalizing row with
  | nil => exact ⟨row, rfl, rfl⟩
  | cons a passes ih =>
    obtain ⟨row', hrow, hfirst⟩ := @firstSeen_passRow row a
    obtain ⟨row'', hpasses, hfirst'⟩ := @ih row'
    refine ⟨row'', ?_, hfirst'.trans hfirst⟩
    rw [passesRow, List.foldl_cons, hrow]
    exact hpasses

/-- The latest time of these lines. -/
def latestOf (sights : List Sight) : Option ℤ := (sights.map Sight.seenAt).max?

/-- A session without a row is first seen at the latest time of the first pass with a line of it. -/
theorem firstSeen_passesRow_none (passes : List (List Sight)) :
    (passesRow none passes).bind SessionRow.firstSeenAt = passes.findSome? latestOf := by
  induction passes with
  | nil => rfl
  | cons a passes ih =>
    rw [passesRow, List.foldl_cons, List.findSome?_cons]
    by_cases h : a = []
    · subst h
      exact ih
    · obtain ⟨x, hx, hrow⟩ := passRow_of_gathers h none
      have hlatest : latestOf a = some x.seenAt := hx.seen
      obtain ⟨row', hpasses, hfirst⟩ := @firstSeen_passesRow (rowAfter none x) passes
      rw [hrow, hlatest]
      exact (congrArg (Option.bind · SessionRow.firstSeenAt) hpasses).trans hfirst

/-- The time of an open session does not move back. -/
theorem lastSeen_passRow {row : SessionRow} {t : ℤ} (hopen : row.closedAt = none)
    (hlast : row.lastSeenAt = some t) (sights : List Sight) :
    ∃ row', passRow (some row) sights = some row' ∧ row'.closedAt = none ∧
      ∃ t', row'.lastSeenAt = some t' ∧ t ≤ t' := by
  by_cases h : sights = []
  · exact ⟨row, by rw [h, passRow_nil], hopen, t, hlast, le_refl t⟩
  · obtain ⟨x, -, hrow⟩ := passRow_of_gathers h (some row)
    refine ⟨_, hrow, ?_⟩
    simp only [rowAfter, hopen, hlast, Option.elim_some, Option.some.injEq, exists_eq_left',
      true_and]
    omega

/-! ## When a session ended -/

/-- The ends that count: of a closed session, those from its first line on that is not older than
the close. -/
def counted (closed : Option ℤ) (sights : List Sight) : List ℤ :=
  match closed with
  | none => ends sights
  | some closedAt => ends (sights.dropWhile fun l => decide (l.seenAt < closedAt))

/-- The last of the ends that count is the latest of them, and not older than the close. -/
def EndsInOrder (closed : Option ℤ) (sights : List Sight) : Prop :=
  ∀ last ∈ (counted closed sights).getLast?,
    (∀ e ∈ counted closed sights, e ≤ last) ∧ ∀ closedAt ∈ closed, closedAt ≤ last

variable {row : Option SessionRow}

/-- A session that is open, or not there, stays open. -/
theorem passRow_open (hopen : closedOf row = none) (sights : List Sight) :
    closedOf (passRow row sights) = none ∧
      endedOf (passRow row sights) = (ends sights).max?.or (endedOf row) := by
  by_cases h : sights = []
  · subst h
    exact ⟨hopen, rfl⟩
  · obtain ⟨x, hx, hrow⟩ := passRow_of_gathers h row
    rw [hrow, ← hx.ended]
    cases row with
    | none => exact ⟨rfl, (Option.or_none).symm⟩
    | some row =>
      have hclosed : row.closedAt = none := hopen
      simp [closedOf, endedOf, rowAfter, hclosed]

variable {closedAt : ℤ}

/-- A closed session whose lines are all older than the close stays as it was. -/
theorem passRow_stale (hclosed : closedOf row = some closedAt)
    (hstale : ∀ l ∈ sights, l.seenAt < closedAt) : passRow row sights = row := by
  by_cases h : sights = []
  · rw [h, passRow_nil]
  · obtain ⟨row, rfl, hrow⟩ := Option.bind_eq_some_iff.mp hclosed
    obtain ⟨x, hx, hafter⟩ := passRow_of_gathers h (some row)
    obtain ⟨l, hl, hseen⟩ := List.mem_map.mp (List.max?_eq_some_iff.mp hx.seen).1
    have hold : x.seenAt < closedAt := by
      rw [← hseen]
      exact hstale l hl
    rw [hafter, rowAfter, hrow]
    dsimp only
    rw [if_pos hold]

/-- A closed session with a line that is not older than the close is opened again. -/
theorem passRow_reopened (hclosed : closedOf row = some closedAt) {l : Sight} (hl : l ∈ sights)
    (hfresh : closedAt ≤ l.seenAt) :
    closedOf (passRow row sights) = none ∧
      endedOf (passRow row sights) =
        (ends sights).max?.filter fun endedAt => !decide (endedAt < closedAt) := by
  obtain ⟨row, rfl, hrow⟩ := Option.bind_eq_some_iff.mp hclosed
  obtain ⟨x, hx, hafter⟩ := passRow_of_gathers (List.ne_nil_of_mem hl) (some row)
  have hle := (List.max?_eq_some_iff.mp hx.seen).2 _ (List.mem_map_of_mem hl)
  have hnew : ¬x.seenAt < closedAt := by omega
  rw [hafter, rowAfter, hrow, ← hx.ended]
  dsimp only
  rw [if_neg hnew]
  exact ⟨rfl, rfl⟩

variable {l : List ℤ}

/-- A last element that is the greatest is the greatest. -/
theorem max?_eq_getLast? (h : ∀ last ∈ l.getLast?, ∀ e ∈ l, e ≤ last) : l.max? = l.getLast? := by
  cases hlast : l.getLast? with
  | none => rw [List.getLast?_eq_none_iff.mp hlast, List.max?_nil]
  | some last => exact List.max?_eq_some_iff.mpr ⟨List.mem_of_getLast? hlast, h last hlast⟩

theorem mem_filter_max? {m : ℤ} : (l.max?.filter fun e => !decide (e < closedAt)) = some m ↔
      (m ∈ l ∧ ∀ e ∈ l, e ≤ m) ∧ closedAt ≤ m := by
  rw [Option.filter_eq_some_iff, List.max?_eq_some_iff]
  simp

/-- Ends that are all older than the close make no difference to what counts. -/
theorem filter_max?_append {a b : List ℤ} (h : ∀ e ∈ a, e < closedAt) :
    ((a ++ b).max?.filter fun e => !decide (e < closedAt)) =
      b.max?.filter fun e => !decide (e < closedAt) := by
  ext m
  rw [mem_filter_max?, mem_filter_max?]
  constructor
  · rintro ⟨⟨hm, hle⟩, hclosed⟩
    refine ⟨⟨?_, fun e he => hle e (List.mem_append_right a he)⟩, hclosed⟩
    rcases List.mem_append.mp hm with hm | hm
    · have hold := h m hm
      omega
    · exact hm
  · rintro ⟨⟨hm, hle⟩, hclosed⟩
    refine ⟨⟨List.mem_append_right a hm, ?_⟩, hclosed⟩
    intro e he
    rcases List.mem_append.mp he with he | he
    · have hold := h e he
      omega
    · exact hle e he

/-- The ends of stale lines are older than a close at a positive time. -/
theorem ends_stale (hpos : 0 < closedAt) (h : ∀ l ∈ sights, l.seenAt < closedAt) :
    ∀ e ∈ ends sights, e < closedAt := by
  intro e he
  obtain ⟨l, hl, rfl⟩ := List.mem_map.mp he
  have hold := h l (List.mem_filter.mp hl).1
  omega

/-- The ends that count of lines that follow stale ones. -/
theorem counted_stale (h : ∀ l ∈ a, l.seenAt < closedAt) (b : List Sight) :
    counted (some closedAt) (a ++ b) = counted (some closedAt) b := by
  rw [counted, List.dropWhile_append_of_pos fun l hl => decide_eq_true (h l hl)]
  rfl

/-- Once a line is not older than the close, the ends of all that follows count. -/
theorem counted_fresh {l : Sight} (hl : l ∈ a) (hfresh : closedAt ≤ l.seenAt) (b : List Sight) :
    counted (some closedAt) (a ++ b) = counted (some closedAt) a ++ ends b := by
  have hne : (a.dropWhile fun l => decide (l.seenAt < closedAt)) ≠ [] := by
    intro hnil
    have hold := List.dropWhile_eq_nil_iff.mp hnil l hl
    simp at hold
    omega
  rw [counted, List.dropWhile_append, if_neg (by simpa using hne), ends_append]
  rfl

/-- An end counts, or is older than a close at a positive time. -/
theorem counted_or_stale {e : ℤ} (hpos : 0 < closedAt) (he : e ∈ ends sights) :
    e ∈ counted (some closedAt) sights ∨ e < closedAt := by
  rw [← List.takeWhile_append_dropWhile (p := fun l : Sight => decide (l.seenAt < closedAt))
    (l := sights), ends_append] at he
  rcases List.mem_append.mp he with he | he
  · refine Or.inr (ends_stale hpos (fun l hl => ?_) e he)
    have hold := List.mem_takeWhile_imp hl
    simpa using hold
  · exact Or.inl he

/-- What follows ends in order is in order. -/
theorem endsInOrder_right {closed : Option ℤ}
    (h : ∀ last ∈ (l ++ ends b).getLast?, (∀ e ∈ l ++ ends b, e ≤ last) ∧
      ∀ closedAt ∈ closed, closedAt ≤ last)
    {last : ℤ} (hlast : last ∈ (ends b).getLast?) :
    (∀ e ∈ l ++ ends b, e ≤ last) ∧ ∀ closedAt ∈ closed, closedAt ≤ last := by
  have hlast' : (ends b).getLast? = some last := hlast
  refine h last ?_
  rw [List.getLast?_append, hlast', Option.some_or]
  rfl

/-- Where the ends are in order, two passes record the end that one records. -/
theorem ended_passRow_append (hpos : ∀ closedAt ∈ closedOf row, 0 < closedAt)
    (h : EndsInOrder (closedOf row) (a ++ b)) :
    endedOf (passRow (passRow row a) b) = endedOf (passRow row (a ++ b)) ∧
      EndsInOrder (closedOf (passRow row a)) b ∧
      ∀ closedAt ∈ closedOf (passRow row a), 0 < closedAt := by
  cases hclosed : closedOf row with
  | none =>
    obtain ⟨hopen, hended⟩ := passRow_open hclosed a
    rw [hclosed, EndsInOrder, counted, ends_append] at h
    have hb : ∀ last ∈ (ends b).getLast?, ∀ e ∈ ends b, e ≤ last := fun last hlast e he =>
      (endsInOrder_right h hlast).1 e (List.mem_append_right _ he)
    rw [hopen]
    refine ⟨?_, fun last hlast => ⟨hb last hlast, by simp⟩, by simp⟩
    rw [(passRow_open hopen b).2, hended, (passRow_open hclosed (a ++ b)).2, ends_append,
      max?_eq_getLast? hb, max?_eq_getLast? fun last hlast => (h last hlast).1]
    cases hlast : (ends b).getLast? with
    | none =>
      have hnone := List.getLast?_eq_none_iff.mp hlast
      rw [hnone, List.append_nil] at h ⊢
      rw [Option.none_or, max?_eq_getLast? fun last hlast => (h last hlast).1]
    | some last => rw [List.getLast?_append, hlast, Option.some_or, Option.some_or, Option.some_or]
  | some closedAt =>
    rw [hclosed] at h hpos
    have hpos' : 0 < closedAt := hpos closedAt rfl
    by_cases hstale : ∀ l ∈ a, l.seenAt < closedAt
    · rw [EndsInOrder, counted_stale hstale] at h
      rw [passRow_stale hclosed hstale, hclosed]
      refine ⟨?_, h, hpos⟩
      by_cases hstale' : ∀ l ∈ b, l.seenAt < closedAt
      · have hall : ∀ l ∈ a ++ b, l.seenAt < closedAt := fun l hl =>
          (List.mem_append.mp hl).elim (hstale l) (hstale' l)
        rw [passRow_stale hclosed hstale', passRow_stale hclosed hall]
      · obtain ⟨l, hl⟩ := not_forall.mp hstale'
        obtain ⟨hl, hfresh⟩ := Classical.not_imp.mp hl
        rw [(passRow_reopened hclosed hl (by omega)).2,
          (passRow_reopened hclosed (List.mem_append_right a hl) (by omega)).2, ends_append,
          filter_max?_append (ends_stale hpos' hstale)]
    · obtain ⟨l, hl⟩ := not_forall.mp hstale
      obtain ⟨hl, hfresh⟩ := Classical.not_imp.mp hl
      obtain ⟨hopen, hended⟩ := passRow_reopened hclosed hl (by omega)
      rw [EndsInOrder, counted_fresh hl (by omega)] at h
      have hb : ∀ last ∈ (ends b).getLast?, ∀ e ∈ ends b, e ≤ last := fun last hlast e he =>
        (endsInOrder_right h hlast).1 e (List.mem_append_right _ he)
      rw [hopen]
      refine ⟨?_, fun last hlast => ⟨hb last hlast, by simp⟩, by simp⟩
      rw [(passRow_open hopen b).2, hended,
        (passRow_reopened hclosed (List.mem_append_left b hl) (by omega)).2, ends_append,
        max?_eq_getLast? hb]
      cases hlast : (ends b).getLast? with
      | none => rw [List.getLast?_eq_none_iff.mp hlast, List.append_nil, Option.none_or]
      | some last =>
        obtain ⟨hle, hfresh'⟩ := endsInOrder_right h hlast
        have hnew : closedAt ≤ last := hfresh' closedAt rfl
        have hmem : last ∈ ends b := List.mem_of_getLast? hlast
        rw [Option.some_or, eq_comm, mem_filter_max?]
        refine ⟨⟨List.mem_append_right _ hmem, ?_⟩, hnew⟩
        intro e he
        rcases List.mem_append.mp he with he | he
        · rcases counted_or_stale hpos' he with he | hold
          · exact hle e (List.mem_append_left _ he)
          · omega
        · exact hle e (List.mem_append_right _ he)

/-- Where the ends are in order, any passes record the end that one records. -/
theorem ended_passesRow {passes : List (List Sight)}
    (hpos : ∀ closedAt ∈ closedOf row, 0 < closedAt) (h : EndsInOrder (closedOf row) passes.flatten)
    : endedOf (passesRow row passes) = endedOf (passRow row passes.flatten) := by
  induction passes generalizing row with
  | nil => rfl
  | cons a passes ih =>
    rw [List.flatten_cons] at h ⊢
    obtain ⟨hended, horder, hpos'⟩ := ended_passRow_append hpos h
    rw [← hended, ← ih hpos' horder]
    rfl

end Rheostream.Bridge
