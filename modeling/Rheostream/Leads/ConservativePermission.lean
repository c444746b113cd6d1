import Rheostream.Leads.ContactPermission

/-!
# Permission is conservative, but for the read without a channel

The newest row that covers a channel decides, and a withdrawal leaves a marker that is such a row.
A read without a channel asks only the channels that some row names. Where a withdrawal of all
channels was followed by grants for each of those, the channels that no row names stay withdrawn,
and the read does not see them.
-/

namespace Rheostream.Leads.ContactPermission

attribute [local instance] integerOrder integerPreorder

variable {s t : PermissionTables} {refs : List PartyRef} {purpose : ContextPurpose}
  {rows : List PermissionRow} {row : PermissionRow}

/-! ### The rows are the calls -/

/-- The row that a call has entered: later withdrawals change a grant's time of withdrawal only. -/
structure Records (e : Entered) (row : PermissionRow) : Prop where
  id : row.id = e.id
  partyRef : row.partyRef = e.partyRef
  purpose : row.purpose = e.purpose
  channel : row.channel = e.channel
  granted : row.withdrawnAt = none → e.withdrawal = false ∧ row.grantedAt = some e.now
  withdrawn : e.withdrawal = true → row.withdrawnAt = some e.now

/-- What every reachable state satisfies. -/
structure Sound (s : PermissionTables) : Prop where
  ids : (s.permissions.map PermissionRow.id).Nodup
  recorded : ∀ row ∈ s.permissions, ∃ e ∈ s.entered, Records e row
  kept : ∀ e ∈ s.entered, ∃ row ∈ s.permissions, Records e row

theorem Records.rewrite {e : Entered} {at_ : ℤ} {reason : Option String} (h : Records e row)
    (hlive : row.withdrawnAt = none) :
    Records e { row with withdrawnAt := some at_, withdrawnReason := reason } := by
  refine ⟨h.id, h.partyRef, h.purpose, h.channel, fun hnone => ?_, fun hwithdrawal => ?_⟩
  · cases hnone
  · have hsome := h.withdrawn hwithdrawal
    rw [hlive] at hsome
    cases hsome

/-- Rows are rewritten, and a new one is entered. -/
theorem Sound.enter (hs : Sound s) {f : PermissionRow → PermissionRow} {e : Entered}
    (hf : ∀ row, (f row).id = row.id ∧ ∀ e, Records e row → Records e (f row))
    (hrow : Records e row) (hfresh : fresh s e.id = true) :
    Sound { s with permissions := s.permissions.map f ++ [row], entered := s.entered ++ [e] } where
  ids := by
    have hmap :
        (s.permissions.map f).map PermissionRow.id = s.permissions.map PermissionRow.id := by
      rw [List.map_map]
      exact List.map_congr_left fun row _ => (hf row).1
    rw [List.map_append, hmap, List.nodup_append]
    refine ⟨hs.ids, by simp, ?_⟩
    rintro _ hold _ hnew rfl
    obtain ⟨old, hmem, hid⟩ := List.mem_map.mp hold
    simp only [List.map_cons, List.map_nil, List.mem_singleton] at hnew
    have hne := List.all_eq_true.mp hfresh old hmem
    rw [hid, hnew, hrow.id] at hne
    simp at hne
  recorded found hfound := by
    rcases List.mem_append.mp hfound with hold | hnew
    · obtain ⟨old, hmem, rfl⟩ := List.mem_map.mp hold
      obtain ⟨e', he', hrecords⟩ := hs.recorded old hmem
      exact ⟨e', List.mem_append_left _ he', (hf old).2 e' hrecords⟩
    · obtain rfl := List.mem_singleton.mp hnew
      exact ⟨e, List.mem_append_right _ List.mem_cons_self, hrow⟩
  kept e' he' := by
    rcases List.mem_append.mp he' with hold | hnew
    · obtain ⟨old, hmem, hrecords⟩ := hs.kept e' hold
      exact ⟨f old, List.mem_append_left _ (List.mem_map_of_mem hmem), (hf old).2 e' hrecords⟩
    · obtain rfl := List.mem_singleton.mp hnew
      exact ⟨row, List.mem_append_right _ List.mem_cons_self, hrow⟩

theorem Sound.step (hs : Sound s) {a : PermissionAction} (h : permissionStep s a = some t) :
    Sound t := by
  cases a with
  | record c m =>
    simp only [permissionStep] at h
    split_ifs at h with hguard
    split at h
    · cases h
      exact hs
    · rename_i answer hanswer
      cases h
      unfold PermissionTables.record at hanswer
      split at hanswer
      · cases hanswer
      · cases hanswer
        have hrow : Records ⟨false, m.partyRef, m.purpose, m.channel, c.now, c.newId⟩
            ⟨c.newId, m.partyRef, m.purpose, m.channel, m.recipientScope,
              some m.disclosureVersion, m.evidenceObservation, some c.now, none, none⟩ :=
          ⟨rfl, rfl, rfl, rfl, fun _ => ⟨rfl, rfl⟩, by simp⟩
        have hentered := hs.enter (f := id) (fun row => ⟨rfl, fun _ h => h⟩) hrow hguard.2
        rw [List.map_id] at hentered
        exact hentered
  | withdraw c m =>
    simp only [permissionStep] at h
    split_ifs at h with hguard
    cases h
    refine hs.enter (fun row => ?_) ⟨rfl, rfl, rfl, rfl, by simp, fun _ => rfl⟩ hguard.2
    split_ifs with hwithdraws
    · refine ⟨rfl, fun e hrecords => hrecords.rewrite ?_⟩
      simp only [PermissionTables.withdraws, Bool.and_eq_true, Option.isNone_iff_eq_none]
        at hwithdraws
      exact hwithdraws.1.2
    · exact ⟨rfl, fun _ h => h⟩
  | suppress c m =>
    simp only [permissionStep] at h
    split_ifs at h
    cases h
    exact ⟨hs.ids, hs.recorded, hs.kept⟩

theorem sound_of_reachable (hs : contactPermission.Reachable s) : Sound s := by
  refine hs.invariant (I := Sound) ?_ ?_
  · rintro _ rfl
    refine ⟨?_, ?_, ?_⟩ <;> simp
  · intro s a t _ hs h
    exact hs.step h

/-! ### The newest row -/

theorem mem_entries : row ∈ s.entries refs purpose ↔
    row ∈ s.permissions ∧ row.partyRef ∈ refs ∧ row.purpose = purpose := by
  simp [PermissionTables.entries]

variable {channel : Option Channel}

theorem mem_applicable : row ∈ applicable rows channel ↔
    row ∈ rows ∧ (row.channel = none ∨ row.channel = channel) := by
  simp [applicable]

theorem latest_eq_none : latest rows = none ↔ rows = [] :=
  List.argmax_eq_none

theorem mem_of_latest (h : latest rows = some row) : row ∈ rows :=
  List.argmax_mem h

variable {other : PermissionRow}

theorem le_latest (h : latest rows = some row) (hmem : other ∈ rows) : other.key ≤ row.key :=
  List.le_of_mem_argmax hmem h

/-- Rows of different identifiers have different keys. -/
theorem key_inj (h : row.key = other.key) : row.id = other.id := by
  have hpair := toLex_inj.mp h
  exact congrArg Prod.snd hpair

theorem Sound.eq_of_key (hs : Sound s) (hrow : row ∈ s.permissions) (hother : other ∈ s.permissions)
    (h : row.key = other.key) : row = other :=
  List.inj_on_of_nodup_map hs.ids hrow hother (key_inj h)

/-- The newest row of a channel is a withdrawal. -/
theorem latestWithdrawn_iff : latestWithdrawn rows channel = true ↔
    ∃ row ∈ applicable rows channel, row.withdrawnAt.isSome = true ∧
      latest (applicable rows channel) = some row := by
  unfold latestWithdrawn
  cases hlatest : latest (applicable rows channel) with
  | none => simp
  | some row =>
    have hmem := mem_of_latest hlatest
    simp only [Option.any_some, Option.some.injEq]
    constructor
    · intro h
      exact ⟨row, hmem, h, rfl⟩
    · rintro ⟨other, -, h, rfl⟩
      exact h

/-! ### What permission may not say -/

/-- A call covers a channel of a purpose, for one of the parties. -/
def Entered.Covers (e : Entered) (refs : List PartyRef) (purpose : ContextPurpose)
    (channel : Channel) : Prop :=
  e.partyRef ∈ refs ∧ e.purpose = purpose ∧ (e.channel = none ∨ e.channel = some channel)

/-- The latest call that covers the channel is a withdrawal: no grant is as late, by the clock of
the calls and their identifiers. -/
def LatestWithdrawal (s : PermissionTables) (refs : List PartyRef) (purpose : ContextPurpose)
    (channel : Channel) : Prop :=
  ∃ w ∈ s.entered, w.withdrawal = true ∧ w.Covers refs purpose channel ∧
    ∀ e ∈ s.entered, e.withdrawal = false → e.Covers refs purpose channel →
      toLex (e.now, e.id) < toLex (w.now, w.id)

/-- Under a clock that goes on from call to call, the last call that covers the channel is the
latest one. -/
theorem latestWithdrawal_of_order {channel : Channel} {before after : List Entered} {w : Entered}
    (hclock : s.entered.Pairwise fun e e' => e.now < e'.now)
    (hsplit : s.entered = before ++ w :: after) (hw : w.withdrawal = true)
    (hcovers : w.Covers refs purpose channel)
    (hlast : ∀ e ∈ after, ¬e.Covers refs purpose channel) :
    LatestWithdrawal s refs purpose channel := by
  refine ⟨w, by simp [hsplit], hw, hcovers, fun e he hgrant hcovers' => ?_⟩
  rw [hsplit] at he hclock
  rcases List.mem_append.mp he with hbefore | hafter
  · have hless := (List.pairwise_append.mp hclock).2.2 e hbefore w List.mem_cons_self
    exact Prod.Lex.lt_iff.mpr (Or.inl hless)
  · rcases List.mem_cons.mp hafter with rfl | hlater
    · rw [hw] at hgrant
      cases hgrant
    · exact absurd hcovers' (hlast e hlater)

/-- Permission is conservative for a purpose and the parties that a reference stands for. -/
structure Conservative (s : PermissionTables) (refs : List PartyRef) (purpose : ContextPurpose) :
    Prop where
  withdrawn : ∀ channel, LatestWithdrawal s refs purpose channel →
    s.check refs purpose (some channel) ≠ .permitted
  /-- The last call that covers the channel is a withdrawal, under a clock that goes on. -/
  lastWithdrawn : ∀ channel before w after, (s.entered.Pairwise fun e e' => e.now < e'.now) →
    s.entered = before ++ w :: after → w.withdrawal = true → w.Covers refs purpose channel →
    (∀ e ∈ after, ¬e.Covers refs purpose channel) →
    s.check refs purpose (some channel) ≠ .permitted
  suppressed : (∃ party ∈ refs, (s.suppressions.lookup party).isSome = true) →
    ∀ channel, s.check refs purpose channel ≠ .permitted
  everyChannel : s.check refs purpose none = .permitted → ∀ channel,
    s.check refs purpose (some channel) ≠ .withdrawn ∧
      s.check refs purpose (some channel) ≠ .suppressed

theorem Sound.not_permitted (hs : Sound s) {channel : Channel}
    (h : LatestWithdrawal s refs purpose channel) :
    s.check refs purpose (some channel) ≠ .permitted := by
  obtain ⟨w, hw, hwithdrawal, ⟨hparty, hpurpose, hchannel⟩, hlatest⟩ := h
  obtain ⟨marker, hmarker, hrecords⟩ := hs.kept w hw
  have hin : marker ∈ applicable (s.entries refs purpose) (some channel) := by
    refine mem_applicable.mpr ⟨mem_entries.mpr ⟨hmarker, ?_, ?_⟩, ?_⟩
    · rw [hrecords.partyRef]
      exact hparty
    · rw [hrecords.purpose, hpurpose]
    · rw [hrecords.channel]
      exact hchannel
  unfold PermissionTables.check
  split_ifs with hsuppressed
  · simp
  · dsimp only
    rw [if_neg (by simpa using List.ne_nil_of_mem hin)]
    cases hrow : latest (applicable (s.entries refs purpose) (some channel)) with
    | none =>
      rw [latest_eq_none] at hrow
      exact absurd hrow (List.ne_nil_of_mem hin)
    | some row =>
      obtain ⟨hrowin, happlies⟩ := mem_applicable.mp (mem_of_latest hrow)
      obtain ⟨hrowmem, hrowparty, hrowpurpose⟩ := mem_entries.mp hrowin
      have hlate : row.withdrawnAt.isSome = true := by
        by_contra hlive
        have hnone : row.withdrawnAt = none := by simpa using hlive
        -- a live row is a grant, and its key is that of its call
        obtain ⟨e, he, hentered⟩ := hs.recorded row hrowmem
        obtain ⟨hgrant, hgranted⟩ := hentered.granted hnone
        have hless := hlatest e he hgrant ⟨by rw [← hentered.partyRef]; exact hrowparty,
          by rw [← hentered.purpose]; exact hrowpurpose,
          by rw [← hentered.channel]; exact happlies⟩
        have hle := le_latest hrow hin
        have hmarkerkey : marker.key = toLex (w.now, w.id) := by
          simp [PermissionRow.key, hrecords.withdrawn hwithdrawal, hrecords.id]
        have hrowkey : row.key = toLex (e.now, e.id) := by
          simp [PermissionRow.key, hnone, hgranted, hentered.id]
        rw [hmarkerkey, hrowkey] at hle
        exact absurd hle (not_le_of_gt hless)
      simp [hlate]

/-- A withdrawal of all channels that the read without a channel does not see: it is the newest row
for all channels, every channel that some row names has a newer grant of its own, and there is a
channel that none names. -/
structure Hidden (s : PermissionTables) (refs : List PartyRef) (purpose : ContextPurpose) :
    Prop where
  unsuppressed : s.anySuppressed refs = false
  general : ∃ row ∈ s.entries refs purpose, row.channel = none ∧ row.withdrawnAt.isSome = true ∧
    ∀ other ∈ s.entries refs purpose, other.channel = none → other.key ≤ row.key
  named : ∃ row ∈ s.entries refs purpose, row.channel ≠ none
  granted : ∀ row ∈ s.entries refs purpose, ∀ channel, row.channel = some channel →
    ∃ grant ∈ s.entries refs purpose, grant.channel = some channel ∧ grant.withdrawnAt = none ∧
      ∀ other ∈ applicable (s.entries refs purpose) (some channel), other.key ≤ grant.key
  unnamed : ∃ channel, ∀ row ∈ s.entries refs purpose, row.channel ≠ some channel

/-! ### When the read without a channel is right -/

theorem mem_channelsOf : channel ∈ channelsOf rows ↔
    (∃ row ∈ rows, row.channel ≠ none ∧ row.channel = channel) ∨
      channel = none ∧ ∀ row ∈ rows, row.channel = none := by
  have hnamed : ∀ c, c ∈ (rows.filterMap PermissionRow.channel).dedup ↔
      ∃ row ∈ rows, row.channel = some c := by
    intro c
    rw [List.mem_dedup, List.mem_filterMap]
  unfold channelsOf
  dsimp only
  split_ifs with hempty
  · have hnone : ∀ row ∈ rows, row.channel = none := by
      intro row hrow
      by_contra hsome
      obtain ⟨c, hc⟩ := Option.ne_none_iff_exists'.mp hsome
      have hin := (hnamed c).mpr ⟨row, hrow, hc⟩
      rw [List.isEmpty_iff.mp hempty] at hin
      cases hin
    rw [List.mem_singleton]
    constructor
    · intro h
      exact Or.inr ⟨h, hnone⟩
    · rintro (⟨row, hrow, hsome, -⟩ | ⟨h, -⟩)
      · exact absurd (hnone row hrow) hsome
      · exact h
  · rw [List.mem_map]
    constructor
    · rintro ⟨c, hc, rfl⟩
      obtain ⟨row, hrow, hchannel⟩ := (hnamed c).mp hc
      exact Or.inl ⟨row, hrow, by simp [hchannel], hchannel⟩
    · rintro (⟨row, hrow, hsome, hchannel⟩ | ⟨-, hnone⟩)
      · obtain ⟨c, hc⟩ := Option.ne_none_iff_exists'.mp hsome
        exact ⟨c, (hnamed c).mpr ⟨row, hrow, hc⟩, by rw [← hchannel, hc]⟩
      · have hnil : (rows.filterMap PermissionRow.channel).dedup = [] := by
          refine List.eq_nil_iff_forall_not_mem.mpr fun c hc => ?_
          obtain ⟨row, hrow, hchannel⟩ := (hnamed c).mp hc
          rw [hnone row hrow] at hchannel
          cases hchannel
        simp [hnil] at hempty

theorem check_none_permitted : s.check refs purpose none = .permitted ↔
    s.anySuppressed refs = false ∧ s.entries refs purpose ≠ [] ∧
      ∀ channel ∈ channelsOf (s.entries refs purpose),
        latestWithdrawn (s.entries refs purpose) channel = false := by
  unfold PermissionTables.check
  split_ifs with hsuppressed
  · simp [hsuppressed]
  · dsimp only
    split_ifs with hempty hwithdrawn
    · simp [List.isEmpty_iff.mp hempty]
    · obtain ⟨channel, hchannel, htrue⟩ := List.any_eq_true.mp hwithdrawn
      simp only [false_iff, not_and]
      intro _ _ hall
      rw [hall channel hchannel] at htrue
      cases htrue
    · refine ⟨fun _ => ⟨by simpa using hsuppressed, by simpa using hempty, ?_⟩, fun _ => rfl⟩
      simpa using hwithdrawn

theorem check_some_withdrawn {channel : Channel} :
    s.check refs purpose (some channel) = .withdrawn ↔
      s.anySuppressed refs = false ∧
        latestWithdrawn (s.entries refs purpose) (some channel) = true := by
  unfold PermissionTables.check latestWithdrawn
  split_ifs with hsuppressed
  · simp [hsuppressed]
  · dsimp only
    split_ifs with hempty hwithdrawn
    · simp [List.isEmpty_iff.mp hempty, latest]
    · simp [hwithdrawn, hsuppressed]
    · simp [hwithdrawn]

theorem check_of_suppressed (h : s.anySuppressed refs = true) (channel : Option Channel) :
    s.check refs purpose channel = .suppressed := by
  unfold PermissionTables.check
  exact if_pos h

theorem check_some_unsuppressed (h : s.anySuppressed refs = false) (channel : Channel) :
    s.check refs purpose (some channel) ≠ .suppressed := by
  unfold PermissionTables.check
  rw [if_neg (by simp [h])]
  dsimp only
  split_ifs <;> simp

/-- The newest row is the one row that no applicable row is newer than. -/
theorem Sound.latest_eq (hs : Sound s) (hmem : row ∈ applicable (s.entries refs purpose) channel)
    (hnewest : ∀ other ∈ applicable (s.entries refs purpose) channel, other.key ≤ row.key) :
    latest (applicable (s.entries refs purpose) channel) = some row := by
  cases hlatest : latest (applicable (s.entries refs purpose) channel) with
  | none =>
    rw [latest_eq_none] at hlatest
    exact absurd hlatest (List.ne_nil_of_mem hmem)
  | some found =>
    have hfound := mem_of_latest hlatest
    have hkey : found.key = row.key := le_antisymm (hnewest found hfound) (le_latest hlatest hmem)
    have hin := (mem_entries.mp (mem_applicable.mp hfound).1).1
    have hin' := (mem_entries.mp (mem_applicable.mp hmem).1).1
    rw [hs.eq_of_key hin hin' hkey]

theorem Sound.hidden_permitted (hs : Sound s) (h : Hidden s refs purpose) :
    s.check refs purpose none = .permitted := by
  obtain ⟨named, hnamed, hsome⟩ := h.named
  refine check_none_permitted.mpr ⟨h.unsuppressed, List.ne_nil_of_mem hnamed,
    fun channel hchannel => ?_⟩
  rcases mem_channelsOf.mp hchannel with ⟨row, hrow, hne, rfl⟩ | ⟨-, hnone⟩
  · obtain ⟨c, hc⟩ := Option.ne_none_iff_exists'.mp hne
    obtain ⟨grant, hgrant, hgrantchannel, hlive, hnewest⟩ := h.granted row hrow c hc
    have hin : grant ∈ applicable (s.entries refs purpose) (some c) :=
      mem_applicable.mpr ⟨hgrant, Or.inr hgrantchannel⟩
    rw [hc, latestWithdrawn, hs.latest_eq hin hnewest]
    simp [hlive]
  · exact absurd (hnone named hnamed) hsome

theorem Sound.hidden_withdrawn (hs : Sound s) (h : Hidden s refs purpose) :
    ∃ channel, s.check refs purpose (some channel) = .withdrawn := by
  obtain ⟨channel, hunnamed⟩ := h.unnamed
  obtain ⟨row, hrow, hnone, hwithdrawn, hnewest⟩ := h.general
  have hin : row ∈ applicable (s.entries refs purpose) (some channel) :=
    mem_applicable.mpr ⟨hrow, Or.inl hnone⟩
  have hlatest : latest (applicable (s.entries refs purpose) (some channel)) = some row := by
    refine hs.latest_eq hin fun other hother => ?_
    obtain ⟨hmem, hchannel⟩ := mem_applicable.mp hother
    rcases hchannel with hgeneral | hown
    · exact hnewest other hmem hgeneral
    · exact absurd hown (hunnamed other hmem)
  refine ⟨channel, check_some_withdrawn.mpr ⟨h.unsuppressed, ?_⟩⟩
  rw [latestWithdrawn, hlatest]
  simp [hwithdrawn]

/-- Where the read without a channel permits what a channel does not, the withdrawal is hidden. -/
theorem Sound.hidden_of_permitted (hs : Sound s) {channel : Channel}
    (h : s.check refs purpose none = .permitted)
    (hwithdrawn : s.check refs purpose (some channel) = .withdrawn) :
    Hidden s refs purpose := by
  obtain ⟨hunsuppressed, -, hall⟩ := check_none_permitted.mp h
  obtain ⟨row, hrow, hsome, hlatest⟩ :=
    latestWithdrawn_iff.mp (check_some_withdrawn.mp hwithdrawn).2
  obtain ⟨hmem, hchannel⟩ := mem_applicable.mp hrow
  have hunnamed : ∀ other ∈ s.entries refs purpose, other.channel ≠ some channel := by
    intro other hother heq
    have hfalse := hall (some channel) (mem_channelsOf.mpr (Or.inl ⟨other, hother, by simp [heq],
      heq⟩))
    rw [(check_some_withdrawn.mp hwithdrawn).2] at hfalse
    cases hfalse
  have hgeneral : row.channel = none := by
    rcases hchannel with hnone | hown
    · exact hnone
    · exact absurd hown (hunnamed row hmem)
  have hnewest : ∀ other ∈ s.entries refs purpose, other.channel = none → other.key ≤ row.key :=
    fun other hother hnone => le_latest hlatest (mem_applicable.mpr ⟨hother, Or.inl hnone⟩)
  refine ⟨hunsuppressed, ⟨row, hmem, hgeneral, hsome, hnewest⟩, ?_, ?_, ⟨channel, hunnamed⟩⟩
  · -- were no channel named, the newest row for all channels would have been read
    by_contra hnamed
    have hnone : ∀ other ∈ s.entries refs purpose, other.channel = none := by
      intro other hother
      by_contra hother'
      exact hnamed ⟨other, hother, hother'⟩
    have hfalse := hall none (mem_channelsOf.mpr (Or.inr ⟨rfl, hnone⟩))
    have hsame : applicable (s.entries refs purpose) none =
        applicable (s.entries refs purpose) (some channel) := by
      refine List.filter_congr fun other hother => ?_
      simp [hnone other hother]
    rw [latestWithdrawn, hsame, hlatest] at hfalse
    simp [hsome] at hfalse
  · intro named hnamed c hc
    have hfalse := hall (some c) (mem_channelsOf.mpr (Or.inl ⟨named, hnamed, by simp [hc], hc⟩))
    have hin : named ∈ applicable (s.entries refs purpose) (some c) :=
      mem_applicable.mpr ⟨hnamed, Or.inr hc⟩
    cases hgrant : latest (applicable (s.entries refs purpose) (some c)) with
    | none =>
      rw [latest_eq_none] at hgrant
      exact absurd hgrant (List.ne_nil_of_mem hin)
    | some grant =>
      rw [latestWithdrawn, hgrant] at hfalse
      have hlive : grant.withdrawnAt = none := by simpa using hfalse
      obtain ⟨hgrantmem, happlies⟩ := mem_applicable.mp (mem_of_latest hgrant)
      refine ⟨grant, hgrantmem, ?_, hlive, fun other hother => le_latest hgrant hother⟩
      rcases happlies with hnone | hown
      · -- a live row for all channels would be newer than the newest of them
        have hle := hnewest grant hgrantmem hnone
        have hge := le_latest hgrant (mem_applicable.mpr ⟨hmem, Or.inl hgeneral⟩)
        have hsame := hs.eq_of_key (mem_entries.mp hgrantmem).1 (mem_entries.mp hmem).1
          (le_antisymm hle hge)
        rw [hsame] at hlive
        rw [hlive] at hsome
        cases hsome
      · exact hown

/-- A permission is conservative exactly when no withdrawal is hidden. -/
theorem conservative_iff (s : PermissionTables) (hs : contactPermission.Reachable s)
    (refs : List PartyRef) (purpose : ContextPurpose) :
    Conservative s refs purpose ↔ ¬Hidden s refs purpose := by
  have hsound := sound_of_reachable hs
  constructor
  · intro hconservative hhidden
    obtain ⟨channel, hwithdrawn⟩ := hsound.hidden_withdrawn hhidden
    exact (hconservative.everyChannel (hsound.hidden_permitted hhidden) channel).1 hwithdrawn
  · intro hshown
    refine ⟨fun channel h => hsound.not_permitted h, fun channel before w after hclock hsplit hw
      hcovers hlast => ?_, fun hsuppressed channel => ?_, fun hpermitted channel => ⟨?_, ?_⟩⟩
    · exact hsound.not_permitted (latestWithdrawal_of_order hclock hsplit hw hcovers hlast)
    · have hany : s.anySuppressed refs = true := List.any_eq_true.mpr hsuppressed
      rw [check_of_suppressed hany]
      simp
    · intro hwithdrawn
      exact hshown (hsound.hidden_of_permitted hpermitted hwithdrawn)
    · exact check_some_unsuppressed (check_none_permitted.mp hpermitted).1 channel

section Sample

def sampleContext (now : ℤ) (newId : Uuid) : CallContext := ⟨["party:1"], fun _ => none, now, newId⟩

/-- All channels are withdrawn, then contact by email is permitted. -/
def sampleCalls : List PermissionAction :=
  [.withdraw (sampleContext 10 1) ⟨"party:1", .followUp, none, none⟩,
    .record (sampleContext 20 2) ⟨"party:1", .followUp, some .email, .workspace, "v1", none⟩]

def noPermissions : PermissionTables := ⟨[], ∅, []⟩

def samplePermissions : PermissionTables :=
  (contactPermission.run noPermissions sampleCalls).getD noPermissions

theorem reachable_sample : contactPermission.Reachable samplePermissions := by
  have hrun : contactPermission.run noPermissions sampleCalls = some samplePermissions := rfl
  exact Machine.reachable_of_run rfl hrun

/-- The read without a channel permits contact, by telephone it is withdrawn. -/
theorem withdrawn_phone :
    contactPermission.run noPermissions sampleCalls = some samplePermissions ∧
      samplePermissions.check ["party:1"] .followUp none = .permitted ∧
      samplePermissions.check ["party:1"] .followUp (some .phone) = .withdrawn := by
  refine ⟨rfl, ?_, ?_⟩ <;> decide

/-- The calls of the sample, and contact on all channels is permitted again. -/
def regrantCalls : List PermissionAction :=
  sampleCalls ++
    [.record (sampleContext 30 3) ⟨"party:1", .followUp, none, .workspace, "v2", none⟩]

def regrantedPermissions : PermissionTables :=
  (contactPermission.run noPermissions regrantCalls).getD noPermissions

/-- The withdrawal is no longer the newest row for all channels, so nothing is hidden. -/
theorem conservative_iff_regranted : Conservative regrantedPermissions ["party:1"] .followUp := by
  have hrun : contactPermission.run noPermissions regrantCalls = some regrantedPermissions := rfl
  have hreached : contactPermission.Reachable regrantedPermissions :=
    Machine.reachable_of_run rfl hrun
  refine (conservative_iff regrantedPermissions hreached ["party:1"] .followUp).mpr ?_
  rintro ⟨-, ⟨row, hrow, hchannel, hwithdrawn, hnewest⟩, -⟩
  have hnewer : ∀ row ∈ regrantedPermissions.entries ["party:1"] .followUp,
      row.channel = none → row.withdrawnAt.isSome = true →
        ∃ other ∈ regrantedPermissions.entries ["party:1"] .followUp,
          other.channel = none ∧ ¬other.key ≤ row.key := by
    decide
  obtain ⟨other, hother, hnone, hlater⟩ := hnewer row hrow hchannel hwithdrawn
  exact hlater (hnewest other hother hnone)

end Sample

end Rheostream.Leads.ContactPermission
