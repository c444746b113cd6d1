import Rheostream.Bridge.SettingsFile

/-!
# Installing and removing the hooks

Every event has its one hook after an install and the rest of the document is as it was. A removal
gives back the document from before the install, as long as no container in it was null.
-/

namespace Rheostream.Bridge

open OrderedDict

section Strip

variable {isOurs : String → Bool} {groups groups' : List Json} {group : Json}

/-- An entry whose command is ours. -/
def isOursEntry (isOurs : String → Bool) (entry : Json) : Bool := (commandOf entry).any isOurs

/-- What is left of a group without our entries: nothing, when it had no others. -/
def foreignGroup (isOurs : String → Bool) (group : Json) : Option Json :=
  match entriesOf group with
  | none => some group
  | some entries =>
    if !entries.any (isOursEntry isOurs) then some group
    else if entries.all (isOursEntry isOurs) then none
    else some (withEntries group (entries.filter fun entry => !isOursEntry isOurs entry))

/-- The groups without our entries. -/
def foreign (isOurs : String → Bool) (groups : List Json) : List Json :=
  groups.filterMap (foreignGroup isOurs)

/-- Whether a group has an entry of ours. -/
def hasOurs (isOurs : String → Bool) (group : Json) : Bool :=
  ((entriesOf group).getD []).any (isOursEntry isOurs)

theorem strip_eq : strip isOurs groups = (foreign isOurs groups, groups.any (hasOurs isOurs)) := by
  induction groups with
  | nil => rfl
  | cons group groups ih =>
    have hforeign : foreign isOurs (group :: groups) =
        (foreignGroup isOurs group).toList ++ foreign isOurs groups := by
      rw [foreign, List.filterMap_cons]
      cases foreignGroup isOurs group <;> rfl
    rw [strip, ih, hforeign, List.any_cons, hasOurs, foreignGroup]
    cases hentries : entriesOf group with
    | none => simp
    | some entries =>
      dsimp only
      have hkept : (entries.filter fun entry => !(commandOf entry).any isOurs) =
          entries.filter fun entry => !isOursEntry isOurs entry := rfl
      rw [hkept, Option.getD_some]
      by_cases hany : entries.any (isOursEntry isOurs) = true
      · have hless : (entries.filter fun entry => !isOursEntry isOurs entry).length ≠
            entries.length := by
          rw [ne_eq, List.length_filter_eq_length_iff]
          obtain ⟨entry, hmem, hours⟩ := List.any_eq_true.mp hany
          intro hall
          have hnot := hall entry hmem
          simp [hours] at hnot
        rw [if_neg hless]
        by_cases hall : entries.all (isOursEntry isOurs) = true
        · have hnil : (entries.filter fun entry => !isOursEntry isOurs entry) = [] := by
            rw [List.filter_eq_nil_iff]
            intro entry hmem
            simp [List.all_eq_true.mp hall entry hmem]
          simp [hnil, hany, hall]
        · have hne : (entries.filter fun entry => !isOursEntry isOurs entry) ≠ [] := by
            intro hnil
            apply hall
            rw [List.all_eq_true]
            intro entry hmem
            simpa using List.filter_eq_nil_iff.mp hnil entry hmem
          simp [hne, hany, hall]
      · have hsame : (entries.filter fun entry => !isOursEntry isOurs entry) = entries := by
          rw [List.filter_eq_self]
          intro entry hmem
          rw [List.any_eq_true] at hany
          by_contra hnot
          exact hany ⟨entry, hmem, by simpa using hnot⟩
        simp [hsame, hany]

theorem foreign_append : foreign isOurs (groups ++ groups') =
    foreign isOurs groups ++ foreign isOurs groups' := List.filterMap_append

theorem commandsOf_append : commandsOf (groups ++ groups') =
    commandsOf groups ++ commandsOf groups' := List.flatMap_append

/-- No group has a command of ours. -/
theorem no_ours_iff : (commandsOf groups).filter isOurs = [] ↔
    groups.any (hasOurs isOurs) = false := by
  rw [List.filter_eq_nil_iff, List.any_eq_false]
  constructor
  · intro h group hgroup hours
    obtain ⟨entry, hentry, hcommand⟩ := List.any_eq_true.mp hours
    obtain ⟨command, hsome, hours⟩ := (Option.any_eq_true _ _).mp hcommand
    refine h command (List.mem_flatMap.mpr ⟨group, hgroup, ?_⟩) hours
    exact List.mem_filterMap.mpr ⟨entry, hentry, hsome⟩
  · intro h command hcommand hours
    obtain ⟨group, hgroup, hmem⟩ := List.mem_flatMap.mp hcommand
    obtain ⟨entry, hentry, hsome⟩ := List.mem_filterMap.mp hmem
    refine h group hgroup (List.any_eq_true.mpr ⟨entry, hentry, ?_⟩)
    exact (Option.any_eq_true _ _).mpr ⟨command, hsome, hours⟩

theorem foreignGroup_of_clean (h : hasOurs isOurs group = false) :
    foreignGroup isOurs group = some group := by
  unfold foreignGroup
  cases hentries : entriesOf group with
  | none => rfl
  | some entries =>
    rw [hasOurs, hentries] at h
    dsimp only
    rw [Option.getD_some] at h
    rw [h]
    rfl

/-- Groups without an entry of ours are kept as they are. -/
theorem foreign_of_clean (h : groups.any (hasOurs isOurs) = false) :
    foreign isOurs groups = groups := by
  rw [List.any_eq_false] at h
  calc foreign isOurs groups = groups.filterMap some := by
        refine List.filterMap_congr fun group hgroup => ?_
        exact foreignGroup_of_clean (by simpa using h group hgroup)
    _ = groups := List.filterMap_some

theorem entriesOf_withEntries {entries kept : List Json} (h : entriesOf group = some entries) :
    entriesOf (withEntries group kept) = some kept := by
  cases group <;> simp_all [entriesOf, withEntries, lookup_set]

/-- Nothing of ours is left. -/
theorem foreign_clean : (foreign isOurs groups).any (hasOurs isOurs) = false := by
  rw [List.any_eq_false]
  intro left hleft
  obtain ⟨group, -, hforeign⟩ := List.mem_filterMap.mp hleft
  unfold foreignGroup at hforeign
  cases hentries : entriesOf group with
  | none =>
    rw [hentries] at hforeign
    obtain rfl := Option.some.inj hforeign
    simp [hasOurs, hentries]
  | some entries =>
    rw [hentries] at hforeign
    dsimp only at hforeign
    split_ifs at hforeign with hnone hall
    · obtain rfl := Option.some.inj hforeign
      simpa [hasOurs, hentries] using hnone
    · obtain rfl := Option.some.inj hforeign
      simp [hasOurs, entriesOf_withEntries hentries]

end Strip

section Hook

variable {isOurs : String → Bool} {timeout : ℤ} {event command : String} {groups : List Json}

/-- A group that is made has one entry, with the command. -/
theorem hookGroup_entry (timeout : ℤ) (event command : String) :
    ∃ entry, entriesOf (hookGroup timeout event command) = some [entry] ∧
      commandOf entry = some command := ⟨_, rfl, rfl⟩

theorem commandsOf_hookGroup : commandsOf [hookGroup timeout event command] = [command] := by
  obtain ⟨entry, hentries, hcommand⟩ := hookGroup_entry timeout event command
  simp [commandsOf, hentries, hcommand]

theorem foreign_hookGroup (h : isOurs command = true) :
    foreign isOurs [hookGroup timeout event command] = [] := by
  obtain ⟨entry, hentries, hcommand⟩ := hookGroup_entry timeout event command
  have hours : isOursEntry isOurs entry = true := by
    rw [isOursEntry, hcommand]
    exact h
  simp [foreign, foreignGroup, hentries, hours]

/-- One hook of ours beside what others have. -/
theorem commands_hooked (h : isOurs command = true) :
    (commandsOf (foreign isOurs groups ++ [hookGroup timeout event command])).filter isOurs =
      [command] := by
  rw [commandsOf_append, List.filter_append, no_ours_iff.mpr foreign_clean, commandsOf_hookGroup,
    List.filter_cons_of_pos h]
  rfl

theorem foreign_hooked (h : isOurs command = true) :
    foreign isOurs (foreign isOurs groups ++ [hookGroup timeout event command]) =
      foreign isOurs groups := by
  rw [foreign_append, foreign_hookGroup h, List.append_nil, foreign_of_clean foreign_clean]

end Hook

/-! ### One event -/

section Event

variable {timeout : ℤ} {st st' : Merging} {event command : String}

/-- The entries of the hooks table. -/
def Merging.table (st : Merging) : Document := st.hooks.getD []

/-- The groups that an event had: none, when it was not there or null. -/
def oldGroups (table : Document) (event : String) : List Json :=
  match table.lookup event with
  | some (.arr groups) => groups
  | _ => []

/-- Whether an event is not there, or null. -/
def isVacant (table : Document) (event : String) : Bool :=
  match table.lookup event with
  | none => true
  | some .null => true
  | _ => false

/-- The event has the command, once, and of the others what it had before. -/
structure Hooked (table : Document) (event command : String) (old : List Json) : Prop where
  groups : ∃ groups, table.lookup event = some (.arr groups) ∧
    (commandsOf groups).filter namesBridgeHook = [command] ∧
      foreign namesBridgeHook groups = foreign namesBridgeHook old

/-- What one event of a merge does. -/
structure Merges (st : Merging) (event command : String) (st' : Merging) : Prop where
  hooked : Hooked st'.table event command (oldGroups st.table event)
  other : ∀ e, e ≠ event → st'.table.lookup e = st.table.lookup e
  keys : st'.table.map Prod.fst =
    st.table.map Prod.fst ++ if event ∈ st.table.map Prod.fst then [] else [event]
  created : ∀ name, name ∈ st'.created ↔ name ∈ st.created ∨
    isVacant st.table event = true ∧
      (name = "hooks" ∧ st.hooks = none ∨ name = "hooks." ++ event)
  there : st'.hooks ≠ none
  shape : st.table.lookup event = none ∨ st.table.lookup event = some .null ∨
    st.table.lookup event = some (.arr (oldGroups st.table event))
  /-- The table is as it was, or the event was written. -/
  written : st' = st ∨ ∃ groups, st'.table = set st.table event (.arr groups) ∧
    foreign namesBridgeHook groups = foreign namesBridgeHook (oldGroups st.table event) ∧
      groups.any (hasOurs namesBridgeHook) = true

theorem groupsOf_some {groups : List Json} (h : groupsOf st.hooks event = .ok (some groups)) :
    st.table.lookup event = some (.arr groups) := by
  unfold groupsOf at h
  have htable : (st.hooks.getD []).lookup event = st.table.lookup event := rfl
  rw [htable] at h
  split at h
  · cases h
  · cases h
  · next found hfound =>
    rw [hfound, Option.some.inj (Except.ok.inj h)]
  · cases h

theorem groupsOf_none (h : groupsOf st.hooks event = .ok none) :
    st.table.lookup event = none ∨ st.table.lookup event = some .null := by
  unfold groupsOf at h
  have htable : (st.hooks.getD []).lookup event = st.table.lookup event := rfl
  rw [htable] at h
  split at h
  · next hnone => exact .inl hnone
  · next hnull => exact .inr hnull
  · cases h
  · cases h

theorem hasOurs_of_command {groups : List Json}
    (h : (commandsOf groups).filter namesBridgeHook = [command]) :
    groups.any (hasOurs namesBridgeHook) = true := by
  by_contra hnone
  rw [no_ours_iff.mpr (by simpa using hnone)] at h
  cases h

theorem mergeEvent_ok (hours : namesBridgeHook command = true)
    (h : mergeEvent timeout st (event, command) = .ok st') : Merges st event command st' := by
  unfold mergeEvent at h
  split at h
  · cases h
  next groups hgroups =>
    have hlookup := groupsOf_some hgroups
    have hold : oldGroups st.table event = groups := by simp [oldGroups, hlookup]
    have hvacant : isVacant st.table event = false := by simp [isVacant, hlookup]
    have hthere : st.hooks ≠ none := by
      intro hnone
      simp [Merging.table, hnone] at hlookup
    have hmem : event ∈ st.table.map Prod.fst :=
      List.mem_map.mpr ⟨_, mem_of_lookup hlookup, rfl⟩
    have hshape : st.table.lookup event = none ∨ st.table.lookup event = some .null ∨
        st.table.lookup event = some (.arr (oldGroups st.table event)) := by
      rw [hold]
      exact .inr (.inr hlookup)
    by_cases hone : (commandsOf groups).filter namesBridgeHook = [command]
    · rw [if_pos hone] at h
      obtain rfl := Except.ok.inj h
      refine ⟨⟨groups, hlookup, hone, by rw [hold]⟩, fun _ _ => rfl, ?_, ?_, hthere, hshape,
        .inl rfl⟩
      · simp [hmem]
      · simp [hvacant]
    · rw [if_neg hone] at h
      obtain rfl := Except.ok.inj h
      have htable : (Merging.table { st with hooks := some (set (st.hooks.getD []) event
          (.arr ((strip namesBridgeHook groups).1 ++ [hookGroup timeout event command]))) }) =
            set st.table event (.arr (foreign namesBridgeHook groups ++
              [hookGroup timeout event command])) := by
        rw [strip_eq]
        rfl
      have hone := @commands_hooked _ timeout event _ groups hours
      refine ⟨⟨_, ?_, hone, ?_⟩, ?_, ?_, ?_, ?_, hshape, .inr ⟨_, htable, ?_, ?_⟩⟩
      · rw [htable, lookup_set, if_pos rfl]
      · rw [foreign_hooked hours, hold]
      · intro e hne
        rw [htable, lookup_set, if_neg hne]
      · rw [htable, keys_set]
      · simp [hvacant]
      · exact Option.some_ne_none _
      · rw [foreign_hooked hours, hold]
      · exact hasOurs_of_command hone
  next hgroups =>
    have hvacant : isVacant st.table event = true := by
      obtain hnone | hnull := groupsOf_none hgroups
      · rw [isVacant, hnone]
      · rw [isVacant, hnull]
    have hold : oldGroups st.table event = [] := by
      obtain hnone | hnull := groupsOf_none hgroups
      · rw [oldGroups, hnone]
      · rw [oldGroups, hnull]
    obtain rfl := Except.ok.inj h
    have hone : (commandsOf [hookGroup timeout event command]).filter namesBridgeHook =
        [command] := by
      rw [commandsOf_hookGroup, List.filter_cons_of_pos hours]
      rfl
    have hnew : foreign namesBridgeHook [hookGroup timeout event command] =
        foreign namesBridgeHook (oldGroups st.table event) := by
      rw [foreign_hookGroup hours, hold]
      rfl
    have hshape := (groupsOf_none hgroups).imp_right
      (Or.inl (b := st.table.lookup event = some (.arr (oldGroups st.table event))))
    refine ⟨⟨_, ?_, hone, hnew⟩, ?_, ?_, ?_, ?_, hshape,
      .inr ⟨_, rfl, hnew, hasOurs_of_command hone⟩⟩
    · change (set st.table event _).lookup event = _
      rw [lookup_set, if_pos rfl]
    · intro e hne
      change (set st.table event _).lookup e = _
      rw [lookup_set, if_neg hne]
    · exact keys_set _ _ _
    · intro name
      cases hhooks : st.hooks <;> simp [hvacant]
    · exact Option.some_ne_none _

/-! ### All events -/

/-- What the events of a merge do, one after another. -/
structure MergesAll (st : Merging) (commands : List (String × String)) (st' : Merging) : Prop where
  hooked : ∀ named ∈ commands, Hooked st'.table named.1 named.2 (oldGroups st.table named.1)
  other : ∀ e, e ∉ commands.map Prod.fst → st'.table.lookup e = st.table.lookup e
  keys : st'.table.map Prod.fst = st.table.map Prod.fst ++
    (commands.map Prod.fst).filter fun e => !(st.table.map Prod.fst).contains e
  created : ∀ name, name ∈ st'.created ↔ name ∈ st.created ∨
    name = "hooks" ∧ st.hooks = none ∧ commands ≠ [] ∨
      ∃ e ∈ commands.map Prod.fst, isVacant st.table e = true ∧ name = "hooks." ++ e
  there : commands ≠ [] → st'.hooks ≠ none

theorem isVacant_congr {table table' : Document} {e : String}
    (h : table.lookup e = table'.lookup e) : isVacant table e = isVacant table' e := by
  rw [isVacant, isVacant, h]

theorem oldGroups_congr {table table' : Document} {e : String}
    (h : table.lookup e = table'.lookup e) : oldGroups table e = oldGroups table' e := by
  rw [oldGroups, oldGroups, h]

theorem isVacant_of_hooks (h : st.hooks = none) (e : String) : isVacant st.table e = true := by
  rw [isVacant, Merging.table, h]
  rfl

theorem mergesAll {commands : List (String × String)} (hnodup : (commands.map Prod.fst).Nodup)
    (hours : ∀ named ∈ commands, namesBridgeHook named.2 = true)
    (h : commands.foldlM (mergeEvent timeout) st = .ok st') : MergesAll st commands st' := by
  induction commands generalizing st with
  | nil =>
    obtain rfl := Except.ok.inj h
    refine ⟨?_, fun _ _ => rfl, ?_, ?_, fun hne => absurd rfl hne⟩
    · intro named hnamed
      exact absurd hnamed List.not_mem_nil
    · simp
    · simp
  | cons named commands ih =>
    obtain ⟨event, command⟩ := named
    obtain ⟨hnew, hrest⟩ := List.nodup_cons.mp hnodup
    rw [List.foldlM_cons] at h
    cases hstep : mergeEvent timeout st (event, command) with
    | error refusal =>
      rw [hstep] at h
      cases h
    | ok mid =>
      rw [hstep] at h
      have hfirst := mergeEvent_ok (hours _ List.mem_cons_self) hstep
      have hlater := ih hrest (fun named hnamed => hours named (List.mem_cons_of_mem _ hnamed)) h
      have hne (e : String) (he : e ∈ commands.map Prod.fst) : e ≠ event := by
        rintro rfl
        exact hnew he
      constructor
      case hooked =>
        intro named hnamed
        obtain rfl | hnamed := List.mem_cons.mp hnamed
        · obtain ⟨groups, hlookup, hone, hforeign⟩ := hfirst.hooked.groups
          exact ⟨groups, (hlater.other event hnew).trans hlookup, hone, hforeign⟩
        · have hkey : named.1 ≠ event := hne _ (List.mem_map_of_mem hnamed)
          rw [← oldGroups_congr (hfirst.other named.1 hkey)]
          exact hlater.hooked named hnamed
      case other =>
        intro e he
        rw [List.map_cons, List.mem_cons, not_or] at he
        rw [hlater.other e he.2, hfirst.other e he.1]
      case keys =>
        rw [hlater.keys, hfirst.keys, List.map_cons, List.filter_cons, List.append_assoc]
        have hfilter : (commands.map Prod.fst).filter (fun e =>
            !(st.table.map Prod.fst ++
              if event ∈ st.table.map Prod.fst then [] else [event]).contains e) =
            (commands.map Prod.fst).filter fun e => !(st.table.map Prod.fst).contains e := by
          refine List.filter_congr fun e he => ?_
          have hkey := hne e he
          split_ifs <;> simp [hkey]
        rw [hfilter]
        congr 1
        by_cases hmem : event ∈ st.table.map Prod.fst
        · simp [hmem]
        · simp [hmem]
      case created =>
        intro name
        rw [hlater.created, hfirst.created]
        have hhooks : ¬ mid.hooks = none := hfirst.there
        have hvacant : (∃ e ∈ commands.map Prod.fst, isVacant mid.table e = true ∧
            name = "hooks." ++ e) ↔ ∃ e ∈ commands.map Prod.fst, isVacant st.table e = true ∧
              name = "hooks." ++ e := by
          refine exists_congr fun e => and_congr_right fun he => ?_
          rw [isVacant_congr (hfirst.other e (hne e he))]
        rw [hvacant]
        have hnone : st.hooks = none → isVacant st.table event = true :=
          fun h => isVacant_of_hooks h event
        simp only [hhooks, List.map_cons, List.mem_cons, exists_eq_or_imp, ne_eq, reduceCtorEq,
          not_false_eq_true, false_and, and_false, false_or]
        constructor
        · rintro ((hold | ⟨hvacant, ⟨rfl, hempty⟩ | hname⟩) | hlater)
          · exact .inl hold
          · exact .inr (.inl ⟨rfl, hempty, trivial⟩)
          · exact .inr (.inr (.inl ⟨hvacant, hname⟩))
          · exact .inr (.inr (.inr hlater))
        · rintro (hold | ⟨rfl, hempty, -⟩ | ⟨hvacant, hname⟩ | hlater)
          · exact .inl (.inl hold)
          · exact .inl (.inr ⟨hnone hempty, .inl ⟨rfl, hempty⟩⟩)
          · exact .inl (.inr ⟨hvacant, .inr hname⟩)
          · exact .inr hlater
      case there =>
        intro _
        by_cases hnil : commands = []
        · subst hnil
          obtain rfl := Except.ok.inj h
          exact hfirst.there
        · exact hlater.there hnil

/-! ### Taken out again -/

def isNull : Json → Bool
  | .null => true
  | _ => false

/-- What a removal makes of an entry that was there before the install: a null under one of the
events is not given back. -/
def givenBack (events created : List String) (e : String × Json) : Option (String × Json) :=
  if events.contains e.1 && isNull e.2 then none else removeEvent namesBridgeHook created e

variable {created : List String}

theorem removeEvent_written {groups old : List Json} (hold : old.any (hasOurs namesBridgeHook) =
      false)
    (hforeign : foreign namesBridgeHook groups = foreign namesBridgeHook old)
    (hours : groups.any (hasOurs namesBridgeHook) = true) :
    removeEvent namesBridgeHook created (event, .arr groups) =
      if old.isEmpty && created.contains ("hooks." ++ event) then none
      else some (event, .arr old) := by
  rw [foreign_of_clean hold] at hforeign
  simp only [removeEvent, strip_eq, hforeign, hours]
  rfl

/-- An entry without commands of ours is left alone. -/
theorem removeEvent_clean {e : String × Json} (h : ∀ groups, e.2 = .arr groups →
      groups.any (hasOurs namesBridgeHook) = false) :
    removeEvent namesBridgeHook created e = some e := by
  unfold removeEvent
  split
  · next groups hgroups =>
    rw [strip_eq, h groups hgroups]
    rfl
  · rfl

theorem filterMap_givenBack {commands : List (String × String)} (hnodup : (commands.map
      Prod.fst).Nodup)
    (hours : ∀ named ∈ commands, namesBridgeHook named.2 = true)
    (hkeys : (st.table.map Prod.fst).Nodup)
    (hclean : ∀ e ∈ commands.map Prod.fst,
      (oldGroups st.table e).any (hasOurs namesBridgeHook) = false)
    (hcreated : ∀ e ∈ commands.map Prod.fst,
      created.contains ("hooks." ++ e) = isVacant st.table e)
    (h : commands.foldlM (mergeEvent timeout) st = .ok st') :
    st'.table.filterMap (removeEvent namesBridgeHook created) =
      st.table.filterMap (givenBack (commands.map Prod.fst) created) := by
  induction commands generalizing st with
  | nil =>
    obtain rfl := Except.ok.inj h
    rfl
  | cons named commands ih =>
    obtain ⟨event, command⟩ := named
    obtain ⟨hnew, hrest⟩ := List.nodup_cons.mp hnodup
    rw [List.foldlM_cons] at h
    cases hstep : mergeEvent timeout st (event, command) with
    | error refusal =>
      rw [hstep] at h
      cases h
    | ok mid =>
      rw [hstep] at h
      have hfirst := mergeEvent_ok (hours _ List.mem_cons_self) hstep
      have hevent : (oldGroups st.table event).any (hasOurs namesBridgeHook) = false :=
        hclean event List.mem_cons_self
      have hne (e : String) (he : e ∈ commands.map Prod.fst) : e ≠ event := by
        rintro rfl
        exact hnew he
      obtain rfl | ⟨groups, htable, hforeign, hthere⟩ := hfirst.written
      · -- A clean event has no hook yet, so it was written.
        obtain ⟨groups, hlookup, hone, -⟩ := hfirst.hooked.groups
        have hhas := hasOurs_of_command hone
        have hsame : oldGroups mid.table event = groups := by simp [oldGroups, hlookup]
        rw [hsame, hhas] at hevent
        cases hevent
      have hmid : (mid.table.map Prod.fst).Nodup := by
        rw [htable]
        exact nodup_keys_set hkeys
      have hend := ih hrest (fun named hnamed => hours named (List.mem_cons_of_mem _ hnamed)) hmid
        (fun e he => by
          rw [oldGroups_congr (hfirst.other e (hne e he))]
          exact hclean e (List.mem_cons_of_mem _ he))
        (fun e he => by
          rw [isVacant_congr (hfirst.other e (hne e he))]
          exact hcreated e (List.mem_cons_of_mem _ he)) h
      have hother (e : String × Json) (he : e.1 ≠ event) :
          givenBack (commands.map Prod.fst) created e =
            givenBack (event :: commands.map Prod.fst) created e := by
        have hcontains : (event :: commands.map Prod.fst).contains e.1 =
            (commands.map Prod.fst).contains e.1 := by simp [he]
        rw [givenBack, givenBack, hcontains]
      have hrestEvent : (commands.map Prod.fst).contains event = false := by simpa using hnew
      have hwritten : givenBack (commands.map Prod.fst) created (event, .arr groups) =
          if (oldGroups st.table event).isEmpty && created.contains ("hooks." ++ event) then none
          else some (event, .arr (oldGroups st.table event)) := by
        rw [givenBack, hrestEvent, Bool.false_and, if_neg Bool.false_ne_true]
        exact removeEvent_written hevent hforeign hthere
      have hmade : created.contains ("hooks." ++ event) = isVacant st.table event :=
        hcreated event List.mem_cons_self
      rw [hend, htable, List.map_cons]
      obtain hnone | hnull | hlist := hfirst.shape
      · have hvacant : isVacant st.table event = true := by rw [isVacant, hnone]
        have hempty : oldGroups st.table event = [] := by rw [oldGroups, hnone]
        rw [hmade, hvacant, hempty] at hwritten
        have hdropped : [(event, Json.arr groups)].filterMap
            (givenBack (commands.map Prod.fst) created) = [] := by
          rw [List.filterMap_cons, hwritten]
          rfl
        rw [set_of_new hnone, List.filterMap_append, hdropped, List.append_nil]
        refine List.filterMap_congr fun e he => hother e ?_
        rintro rfl
        exact lookup_eq_none.mp hnone (List.mem_map_of_mem he)
      · have hvacant : isVacant st.table event = true := by rw [isVacant, hnull]
        have hempty : oldGroups st.table event = [] := by rw [oldGroups, hnull]
        refine filterMap_set hkeys hnull (fun e _ he => hother e he) ?_
        rw [hwritten, hmade, hvacant, hempty]
        simp [givenBack, isNull]
      · have hvacant : isVacant st.table event = false := by rw [isVacant, hlist]
        refine filterMap_set hkeys hlist (fun e _ he => hother e he) ?_
        rw [hwritten, hmade, hvacant]
        have hleft : removeEvent namesBridgeHook created
            (event, .arr (oldGroups st.table event)) =
              some (event, .arr (oldGroups st.table event)) := by
          refine removeEvent_clean fun found hfound => ?_
          rw [← Json.arr.inj hfound]
          exact hevent
        simp [givenBack, isNull, hleft]

/-- Where every event has its one hook, nothing is written. -/
theorem merges_again {commands : List (String × String)}
    (h : ∀ named ∈ commands, ∃ groups, st.table.lookup named.1 = some (.arr groups) ∧
      (commandsOf groups).filter namesBridgeHook = [named.2]) :
    commands.foldlM (mergeEvent timeout) st = .ok st := by
  induction commands with
  | nil => rfl
  | cons named commands ih =>
    obtain ⟨groups, hlookup, hone⟩ := h named List.mem_cons_self
    have hgroups : groupsOf st.hooks named.1 = .ok (some groups) := by
      have htable : (st.hooks.getD []).lookup named.1 = st.table.lookup named.1 := rfl
      rw [groupsOf, htable, hlookup]
    have hstep : mergeEvent timeout st named = .ok st := by
      simp only [mergeEvent, hgroups, if_pos hone]
    rw [List.foldlM_cons, hstep]
    exact ih fun other hother => h other (List.mem_cons_of_mem _ hother)

end Event

/-! ### The whole document -/

section Law

variable {timeout : ℤ} {document : Document} {commands : List (String × String)} {merged : Merged}

/-- The hooks table of a document, empty when there is none. -/
def tableOf (document : Document) : Document :=
  match document.lookup "hooks" with
  | some (.obj hooks) => hooks
  | _ => []

/-- No key is there twice, in the document and in its hooks table. -/
structure DistinctKeys (document : Document) : Prop where
  keys : (document.map Prod.fst).Nodup
  events : (tableOf document).map Prod.fst |>.Nodup

/-- No container that an install would fill is null. -/
structure NoNull (document : Document) (commands : List (String × String)) : Prop where
  hooks : commands ≠ [] → document.lookup "hooks" ≠ some .null
  events : ∀ named ∈ commands, (tableOf document).lookup named.1 ≠ some .null

/-- What an install leaves, and what a removal gives back. -/
structure SettingsLaw (timeout : ℤ) (document : Document) (commands : List (String × String))
    (merged : Merged) : Prop where
  /-- A document without bridge commands is given back exactly when nothing in it was null. -/
  restored : (∀ command ∈ bridgeCommands document, namesBridgeHook command = false) →
    (remove merged.document namesBridgeHook merged.created = document ↔ NoNull document commands)
  /-- A second install changes and creates nothing. -/
  again : merge timeout merged.document commands = .ok ⟨merged.document, []⟩
  /-- Every event has its one hook, beside the groups and entries of others. -/
  hooked : ∀ named ∈ commands,
    Hooked (tableOf merged.document) named.1 named.2 (oldGroups (tableOf document) named.1)
  /-- The other events are as they were, and new ones come last. -/
  events : ∀ e, e ∉ commands.map Prod.fst →
    (tableOf merged.document).lookup e = (tableOf document).lookup e
  eventOrder : (tableOf merged.document).map Prod.fst = (tableOf document).map Prod.fst ++
    (commands.map Prod.fst).filter fun e => !((tableOf document).map Prod.fst).contains e
  /-- The other keys are as they were, and a new table comes last. -/
  keys : (merged.document.filter fun e => e.1 ≠ "hooks") = document.filter fun e => e.1 ≠ "hooks"
  keyOrder : merged.document.map Prod.fst = document.map Prod.fst ∨
    "hooks" ∉ document.map Prod.fst ∧
      merged.document.map Prod.fst = document.map Prod.fst ++ ["hooks"]

/-- An accepted document has its table, or none that counts. -/
theorem hooksTable_ok {hooks : Option Document} (h : hooksTable document = .ok hooks) :
    (Merging.mk hooks []).table = tableOf document ∧
      (hooks = none ↔ document.lookup "hooks" = none ∨ document.lookup "hooks" = some .null) ∧
        ∀ table, hooks = some table → document.lookup "hooks" = some (.obj table) := by
  unfold hooksTable at h
  unfold tableOf Merging.table
  split at h
  · next hnone =>
    obtain rfl := Except.ok.inj h
    simp [hnone]
  · next hnull =>
    obtain rfl := Except.ok.inj h
    simp [hnull]
  · next table htable =>
    obtain rfl := Except.ok.inj h
    simp [htable]
  · cases h

theorem merge_ok (h : merge timeout document commands = .ok merged) :
    ∃ hooks final, hooksTable document = .ok hooks ∧
      commands.foldlM (mergeEvent timeout) ⟨hooks, []⟩ = .ok final ∧
        merged = ⟨withHooks document final.hooks, final.created⟩ := by
  unfold merge at h
  split at h
  · cases h
  next hooks hhooks =>
  split at h
  · cases h
  next final hfinal =>
  exact ⟨hooks, final, hhooks, hfinal, (Except.ok.inj h).symm⟩

theorem tableOf_set (table : Document) :
    tableOf (set document "hooks" (.obj table)) = table := by
  rw [tableOf, lookup_set, if_pos rfl]

/-- No command of ours is under an event. -/
theorem clean_of_bridgeCommands
    (h : ∀ command ∈ bridgeCommands document, namesBridgeHook command = false) (e : String) :
    (oldGroups (tableOf document) e).any (hasOurs namesBridgeHook) = false := by
  rw [← no_ours_iff, List.filter_eq_nil_iff]
  intro command hcommand hours
  have hfalse := h command ?_
  · rw [hours] at hfalse
    cases hfalse
  unfold oldGroups at hcommand
  split at hcommand
  · next groups hgroups =>
    unfold tableOf at hgroups
    split at hgroups
    · next table htable =>
      rw [bridgeCommands, htable]
      exact List.mem_flatMap.mpr ⟨_, mem_of_lookup hgroups, hcommand⟩
    · cases hgroups
  · cases hcommand

/-- Every group of a document without bridge commands is clean. -/
theorem clean_entries (h : ∀ command ∈ bridgeCommands document, namesBridgeHook command = false)
    (hkeys : ((tableOf document).map Prod.fst).Nodup) {e : String × Json}
    (he : e ∈ tableOf document) (created : List String) :
    removeEvent namesBridgeHook created e = some e := by
  refine removeEvent_clean fun groups hgroups => ?_
  have hlookup : (tableOf document).lookup e.1 = some (.arr groups) := by
    rw [← hgroups]
    exact lookup_of_mem hkeys he
  have hclean := clean_of_bridgeCommands h e.1
  rw [oldGroups, hlookup] at hclean
  exact hclean

/-- What a removal leaves of a clean table. -/
theorem filterMap_givenBack_eq {events created : List String}
    (h : ∀ command ∈ bridgeCommands document, namesBridgeHook command = false)
    (hkeys : ((tableOf document).map Prod.fst).Nodup) :
    (tableOf document).filterMap (givenBack events created) =
      (tableOf document).filter fun e => !(events.contains e.1 && isNull e.2) := by
  rw [← List.filterMap_eq_filter]
  refine List.filterMap_congr fun e he => ?_
  rw [givenBack, clean_entries h hkeys he]
  cases hnull : events.contains e.1 && isNull e.2 <;> simp only [Option.guard, hnull] <;> rfl

/-- Nothing is lost exactly when no named event is null. -/
theorem filter_eq_self_iff_noNull (hkeys : ((tableOf document).map Prod.fst).Nodup) :
    ((tableOf document).filter fun e =>
        !((commands.map Prod.fst).contains e.1 && isNull e.2)) = tableOf document ↔
      ∀ named ∈ commands, (tableOf document).lookup named.1 ≠ some .null := by
  rw [List.filter_eq_self]
  constructor
  · intro h named hnamed hnull
    have hkept := h _ (mem_of_lookup hnull)
    have hevent : named.1 ∈ commands.map Prod.fst := List.mem_map_of_mem hnamed
    simp [isNull, hevent] at hkept
  · rintro h ⟨key, value⟩ he
    rw [Bool.not_eq_true', Bool.and_eq_false_iff]
    by_cases hevent : key ∈ commands.map Prod.fst
    · right
      obtain ⟨named, hnamed, rfl⟩ := List.mem_map.mp hevent
      have hne := h named hnamed
      rw [lookup_of_mem hkeys he] at hne
      cases value <;> simp_all [isNull]
    · left
      simpa using hevent

/-- The names of the two kinds of containers differ. -/
theorem event_ne_hooks (e : String) : "hooks." ++ e ≠ "hooks" := by
  intro heq
  have hlength := congrArg String.length heq
  rw [String.length_append] at hlength
  have hsix : "hooks.".length = 6 := by decide
  have hfive : "hooks".length = 5 := by decide
  omega

/-- An install and its removal give the document back exactly when nothing in it was null. -/
theorem remove_merge_iff (hdistinct : DistinctKeys document)
    (hnodup : (commands.map Prod.fst).Nodup)
    (hours : ∀ named ∈ commands, namesBridgeHook named.2 = true)
    (hclean : ∀ command ∈ bridgeCommands document, namesBridgeHook command = false)
    (haccept : merge timeout document commands = .ok merged) :
    remove merged.document namesBridgeHook merged.created = document ↔
      NoNull document commands := by
  obtain ⟨hooks, final, hhooks, hfold, rfl⟩ := merge_ok haccept
  obtain ⟨htable, hnone, hsome⟩ := hooksTable_ok hhooks
  have hall := mergesAll hnodup hours hfold
  have hcreated : ∀ e ∈ commands.map Prod.fst,
      final.created.contains ("hooks." ++ e) = isVacant (tableOf document) e := by
    intro e he
    rw [Bool.eq_iff_iff, List.contains_iff_mem, hall.created, htable]
    constructor
    · rintro (hin | ⟨heq, -⟩ | ⟨e', -, hvacant, heq⟩)
      · exact absurd hin List.not_mem_nil
      · exact absurd heq (event_ne_hooks e)
      · have hsame : e = e' := by
          have hlist := congrArg String.toList heq
          rw [String.toList_append, String.toList_append, List.append_cancel_left_eq] at hlist
          exact String.toList_injective hlist
        rw [hsame]
        exact hvacant
    · intro hvacant
      exact .inr (.inr ⟨e, he, hvacant, rfl⟩)
  have hkept : final.table.filterMap (removeEvent namesBridgeHook final.created) =
      (tableOf document).filter fun e =>
        !((commands.map Prod.fst).contains e.1 && isNull e.2) := by
    rw [← filterMap_givenBack_eq hclean hdistinct.events, ← htable]
    refine filterMap_givenBack hnodup hours ?_ ?_ ?_ hfold
    · rw [htable]
      exact hdistinct.events
    · intro e _
      rw [htable]
      exact clean_of_bridgeCommands hclean e
    · rw [htable]
      exact hcreated
  have hcontains : final.created.contains "hooks" = true ↔ hooks = none ∧ commands ≠ [] := by
    rw [List.contains_iff_mem, hall.created]
    constructor
    · rintro (hin | ⟨-, hboth⟩ | ⟨e, -, -, heq⟩)
      · exact absurd hin List.not_mem_nil
      · exact hboth
      · exact absurd heq.symm (event_ne_hooks e)
    · rintro hboth
      exact .inr (.inl ⟨rfl, hboth⟩)
  have hevents := @filter_eq_self_iff_noNull _ commands hdistinct.events
  have hrestore (table : Document) (hfinal : final.hooks = some table) (hthere : ∃ old,
      hooks = some old) : remove (withHooks document final.hooks) namesBridgeHook final.created =
        document ↔ NoNull document commands := by
    obtain ⟨old, hold⟩ := hthere
    have hlookup := hsome old hold
    have hsame : tableOf document = old := by rw [tableOf, hlookup]
    have hnot : final.created.contains "hooks" = false := by
      rw [Bool.eq_false_iff, ne_eq, hcontains, hold]
      simp
    have htableFinal : final.table = table := by rw [Merging.table, hfinal]; rfl
    rw [htableFinal] at hkept
    have hremove : remove (withHooks document final.hooks) namesBridgeHook final.created =
        set document "hooks" (.obj ((tableOf document).filter fun e =>
          !((commands.map Prod.fst).contains e.1 && isNull e.2))) := by
      simp only [hfinal, withHooks, remove, lookup_set, if_pos, hkept, hnot, Bool.and_false]
      rw [if_neg Bool.false_ne_true, set_set]
    rw [hremove]
    constructor
    · intro heq
      have hread := congrArg (fun d : Document => d.lookup "hooks") heq
      simp only [lookup_set, if_pos] at hread
      rw [hlookup, Option.some.injEq, Json.obj.injEq, ← hsame] at hread
      refine ⟨fun _ hnull => ?_, hevents.mp hread⟩
      rw [hlookup] at hnull
      cases hnull
    · intro hnoNull
      rw [hevents.mpr hnoNull.events, hsame]
      exact set_eq_self hlookup
  cases hinit : hooks with
  | some old =>
    cases hfinal : final.hooks with
    | some table =>
      rw [← hfinal]
      exact hrestore table hfinal ⟨old, hinit⟩
    | none =>
      exfalso
      by_cases hnil : commands = []
      · subst hnil
        obtain rfl := Except.ok.inj hfold
        rw [hinit] at hfinal
        cases hfinal
      · exact hall.there hnil hfinal
  | none =>
    have hempty : tableOf document = [] := by
      rw [← htable, hinit]
      rfl
    have hvacant := hnone.mp hinit
    have hnoEvent : ∀ named ∈ commands, (tableOf document).lookup named.1 ≠ some .null := by
      intro named _
      rw [hempty, List.lookup_nil]
      exact (Option.some_ne_none _).symm
    by_cases hnil : commands = []
    · subst hnil
      obtain rfl := Except.ok.inj hfold
      have hremove : remove (withHooks document hooks) namesBridgeHook [] = document := by
        rw [hinit]
        obtain hmissing | hnull := hvacant
        · simp [withHooks, remove, hmissing]
        · simp [withHooks, remove, hnull]
      exact iff_of_true hremove ⟨fun hne => absurd rfl hne, hnoEvent⟩
    · obtain ⟨table, hfinal⟩ := Option.ne_none_iff_exists'.mp (hall.there hnil)
      have htableFinal : final.table = table := by
        rw [Merging.table, hfinal]
        rfl
      have hnames : final.created.contains "hooks" = true := hcontains.mpr ⟨hinit, hnil⟩
      rw [htableFinal, hempty, List.filter_nil] at hkept
      have hemptied : (table.any fun e =>
          (removeEvent namesBridgeHook final.created e).isNone) = true := by
        obtain ⟨named, hnamed⟩ := List.exists_mem_of_ne_nil commands hnil
        obtain ⟨groups, hlookup, -, -⟩ := (hall.hooked named hnamed).groups
        rw [htableFinal] at hlookup
        have hmem := mem_of_lookup hlookup
        refine List.any_eq_true.mpr ⟨_, hmem, ?_⟩
        rw [Option.isNone_iff_eq_none]
        exact List.filterMap_eq_nil_iff.mp hkept _ hmem
      have hremove : remove (withHooks document final.hooks) namesBridgeHook final.created =
          del (set document "hooks" (.obj table)) "hooks" := by
        simp only [hfinal, withHooks, remove, lookup_set, if_pos, hkept, hemptied, hnames]
        rfl
      rw [hremove]
      obtain hmissing | hnull := hvacant
      · refine iff_of_true (del_set hmissing) ⟨fun _ hnull => ?_, hnoEvent⟩
        rw [hmissing] at hnull
        cases hnull
      · refine iff_of_false ?_ fun hnoNull => hnoNull.hooks hnil hnull
        intro heq
        have hkeys : ((set document "hooks" (.obj table)).map Prod.fst).Nodup :=
          nodup_keys_set hdistinct.keys
        have hgone := lookup_del hkeys "hooks"
        rw [heq, hnull] at hgone
        cases hgone

/-- What holds of every install of the hooks, and of its removal. -/
theorem settings_law (hdistinct : DistinctKeys document) (hnodup : (commands.map Prod.fst).Nodup)
    (hours : ∀ named ∈ commands, namesBridgeHook named.2 = true)
    (haccept : merge timeout document commands = .ok merged) :
    SettingsLaw timeout document commands merged := by
  have hrestored hclean := remove_merge_iff hdistinct hnodup hours hclean haccept
  obtain ⟨hooks, final, hhooks, hfold, rfl⟩ := merge_ok haccept
  obtain ⟨htable, hnone, hsome⟩ := hooksTable_ok hhooks
  have hall := mergesAll hnodup hours hfold
  have hafter : tableOf (withHooks document final.hooks) = final.table := by
    cases hfinal : final.hooks with
    | some table =>
      rw [withHooks, tableOf_set, Merging.table, hfinal]
      rfl
    | none =>
      have hnil : commands = [] := by
        by_contra hne
        exact hall.there hne hfinal
      subst hnil
      obtain rfl := Except.ok.inj hfold
      rw [withHooks, htable]
  refine ⟨hrestored, ?_, ?_, ?_, ?_, ?_, ?_⟩
  · cases hfinal : final.hooks with
    | some table =>
      have hsame : commands.foldlM (mergeEvent timeout) ⟨some table, []⟩ =
          .ok ⟨some table, []⟩ := by
        refine merges_again fun named hnamed => ?_
        obtain ⟨groups, hlookup, hone, -⟩ := (hall.hooked named hnamed).groups
        rw [Merging.table, hfinal] at hlookup
        exact ⟨groups, hlookup, hone⟩
      simp only [merge, withHooks, hooksTable, lookup_set, if_pos, hsame, set_set]
    | none =>
      have hnil : commands = [] := by
        by_contra hne
        exact hall.there hne hfinal
      subst hnil
      obtain rfl := Except.ok.inj hfold
      have hnoHooks : hooks = none := hfinal
      simp only [merge, withHooks, hhooks, hnoHooks]
      rfl
  · intro named hnamed
    rw [hafter, ← htable]
    exact hall.hooked named hnamed
  · intro e he
    rw [hafter, ← htable]
    exact hall.other e he
  · rw [hafter, ← htable]
    exact hall.keys
  · cases final.hooks with
    | none => rfl
    | some table => exact filter_set _ _ _
  · cases final.hooks with
    | none => exact .inl rfl
    | some table =>
      simp only [withHooks, keys_set]
      by_cases hmem : "hooks" ∈ document.map Prod.fst
      · rw [if_pos hmem]
        exact .inl (List.append_nil _)
      · rw [if_neg hmem]
        exact .inr ⟨hmem, rfl⟩

end Law

section Sample

private def sampleCommands : List (String × String) :=
  [("Stop", "/bin/sh -c run python /home/u/.rheo-bridge/hook.py")]

/-- A document with a hook of someone else's under the event. -/
private def sampleDocument : Document :=
  [("model", .str "large"), ("hooks", .obj [("Stop", .arr [.obj [("hooks", .arr [.obj
    [("type", .str "command"), ("command", .str "notify")]])]])])]

private def sampleMerged : Merged :=
  ⟨[("model", .str "large"), ("hooks", .obj [("Stop", .arr [.obj [("hooks", .arr [.obj
      [("type", .str "command"), ("command", .str "notify")]])],
    hookGroup 5 "Stop" "/bin/sh -c run python /home/u/.rheo-bridge/hook.py"])])], []⟩

/-- The law on the sample settings, with a hook of their own. -/
theorem settings_law_sample : SettingsLaw 5 sampleDocument sampleCommands sampleMerged := by
  have haccept : merge 5 sampleDocument sampleCommands = .ok sampleMerged := by rfl
  refine settings_law ⟨by decide, by decide⟩ (by decide) ?_ haccept
  intro named hnamed
  rw [List.mem_singleton.mp hnamed]
  decide

/-- A table that is null is not given back. -/
theorem null_not_restored : ∃ merged,
    merge 5 [("hooks", .null)] sampleCommands = .ok merged ∧
      bridgeCommands [("hooks", .null)] = [] ∧
        remove merged.document namesBridgeHook merged.created ≠ [("hooks", .null)] := by
  refine ⟨_, rfl, rfl, ?_⟩
  exact (List.cons_ne_nil _ _).symm

end Sample

end Rheostream.Bridge
