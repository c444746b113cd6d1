import Rheostream.Settings.Resolver
import Rheostream.Settings.TextForm

/-!
# What a setting resolves to

Whatever rows are stored, a setting resolves, to a value its key accepts and that is not looser
than the deployment's. A value that was accepted is read back, but for list items that the text
form does not keep.
-/

namespace Rheostream.Settings

/-! ## Values of a key -/

/-- A value of the key's type, among its choices and in its range. -/
structure Accepted (spec : KeySpec) (value : SettingValue) : Prop where
  typed : matchesType spec.type value = true
  chosen : inChoices spec.choices value = true
  inRange : outOfBounds spec.minimum spec.maximum value = false

/-- A value the key accepts that is not looser than the deployment's. -/
structure Sound (spec : KeySpec) (deployed value : SettingValue) : Prop extends
    Accepted spec value where
  notLooser : ∀ f ∈ spec.floor, isLooser f deployed value = some false

theorem accepted_default (spec : KeySpec) : Accepted spec spec.default :=
  ⟨spec.typed, spec.inRange.1, spec.inRange.2⟩

variable {spec : KeySpec}

variable {value : SettingValue}

theorem checkValue_eq_some {v : SettingValue} :
    checkValue spec value = some v ↔ Accepted spec value ∧ v = value := by
  rw [checkValue]
  constructor
  · intro h
    split_ifs at h with htyped hchosen hrange
    refine ⟨⟨by simpa using htyped, by simpa using hchosen, by simpa using hrange⟩, ?_⟩
    exact (Option.some.inj h).symm
  · rintro ⟨⟨htyped, hchosen, hrange⟩, rfl⟩
    simp [htyped, hchosen, hrange]

variable {text : List Char} {v : SettingValue}

theorem decodeText_eq_some :
    decodeText spec text = some v ↔ readAs spec.type text = some v ∧
      inChoices spec.choices v = true ∧ outOfBounds spec.minimum spec.maximum v = false := by
  rw [decodeText, Option.bind_eq_some_iff]
  constructor
  · rintro ⟨value, hread, h⟩
    split_ifs at h with hchosen hrange
    obtain rfl := Option.some.inj h
    exact ⟨hread, by simpa using hchosen, by simpa using hrange⟩
  · rintro ⟨hread, hchosen, hrange⟩
    exact ⟨v, hread, by simp [hchosen, hrange]⟩

theorem matchesType_readWord {word : String} (h : readWord word = some v) :
    matchesType .bool v = true := by
  rw [readWord] at h
  split_ifs at h
  · rw [← Option.some.inj h]
    rfl
  · rw [← Option.some.inj h]
    rfl

theorem matchesType_readAs {type : ValueType} (h : readAs type text = some v) :
    matchesType type v = true := by
  cases type with
  | str =>
    rw [← Option.some.inj h]
    rfl
  | int =>
    have hint : (pyInt (pyStrip (String.ofList text))).map SettingValue.int = some v := h
    obtain ⟨n, -, rfl⟩ := Option.map_eq_some_iff.mp hint
    rfl
  | bool => exact matchesType_readWord h
  | strList =>
    rw [← Option.some.inj h]
    rfl

/-- What a row decodes to is a value the key accepts. -/
theorem accepted_of_decodeText (h : decodeText spec text = some v) : Accepted spec v := by
  obtain ⟨hread, hchosen, hrange⟩ := decodeText_eq_some.mp h
  exact ⟨matchesType_readAs hread, hchosen, hrange⟩

/-- A key of another type than a string's has no choices. -/
theorem choices_eq_none (h : spec.type ≠ .str) : spec.choices = none := by
  by_contra hne
  exact h (spec.chosen hne)

/-! ## The floor -/

/-- A value is not looser than itself. -/
theorem isLooser_self {f : Floor} (h : matchesType (floorType f) v = true) :
    isLooser f v v = some false := by
  cases f with
  | min => cases v with | int n => simp [isLooser] | _ => cases h
  | union => cases v with | list items => simp [isLooser] | _ => cases h
  | subset => cases v with | list items => simp [isLooser] | _ => cases h
  | and => cases v with | bool b => cases b <;> rfl | _ => cases h

variable {current deployed : SettingValue}

/-- Under a floor an override gives a value that the key accepts and that is not looser than the
deployment's. -/
theorem applyFloor_sound {f : Floor} (hfloor : spec.floor = some f) {override : SettingValue}
    (hcurrent : Sound spec deployed current) (hoverride : Accepted spec override) :
    ∃ v, applyFloor f current override = some v ∧ Sound spec deployed v := by
  have htype : floorType f = spec.type := spec.floored f hfloor
  have hlooser := hcurrent.notLooser f hfloor
  have hcurrentTyped := hcurrent.typed
  have hoverrideTyped := hoverride.typed
  have hchoices : spec.choices = none := by
    refine choices_eq_none ?_
    rw [← htype]
    cases f <;> decide
  have hnotLooser : ∀ {v}, isLooser f deployed v = some false →
      ∀ g ∈ spec.floor, isLooser g deployed v = some false := by
    intro v hv g hg
    rw [hfloor] at hg
    obtain rfl := Option.some.inj hg
    exact hv
  rw [← htype] at hcurrentTyped hoverrideTyped
  cases f with
  | min =>
    cases current with
    | int m =>
      cases override with
      | int n =>
        cases deployed with
        | int d =>
          refine ⟨_, rfl, ⟨by rw [← htype]; rfl, by rw [hchoices]; rfl, ?_⟩, hnotLooser ?_⟩
          · have hm := hcurrent.inRange
            have hn := hoverride.inRange
            rcases min_choice m n with h | h
            · rw [h]; exact hm
            · rw [h]; exact hn
          · simp only [isLooser, Option.some.injEq, decide_eq_false_iff_not] at hlooser ⊢
            omega
        | _ => cases hlooser
      | _ => cases hoverrideTyped
    | _ => cases hcurrentTyped
  | union =>
    cases current with
    | list m =>
      cases override with
      | list n =>
        cases deployed with
        | list d =>
          refine ⟨_, rfl, ⟨by rw [← htype]; rfl, by rw [hchoices]; rfl, rfl⟩, hnotLooser ?_⟩
          simp only [isLooser, Option.some.injEq, Bool.not_eq_false', List.all_eq_true,
            List.contains_iff_mem] at hlooser ⊢
          exact fun x hx => List.mem_append_left _ (hlooser x hx)
        | _ => cases hlooser
      | _ => cases hoverrideTyped
    | _ => cases hcurrentTyped
  | subset =>
    cases current with
    | list m =>
      cases override with
      | list n =>
        cases deployed with
        | list d =>
          refine ⟨_, rfl, ⟨by rw [← htype]; rfl, by rw [hchoices]; rfl, rfl⟩, hnotLooser ?_⟩
          simp only [isLooser, Option.some.injEq, Bool.not_eq_false', List.all_eq_true,
            List.contains_iff_mem] at hlooser ⊢
          exact fun x hx => hlooser x (List.mem_filter.mp hx).1
        | _ => cases hlooser
      | _ => cases hoverrideTyped
    | _ => cases hcurrentTyped
  | and =>
    cases current with
    | bool m =>
      cases override with
      | bool n =>
        cases deployed with
        | bool d =>
          refine ⟨_, rfl, ⟨by rw [← htype]; rfl, by rw [hchoices]; rfl, rfl⟩, hnotLooser ?_⟩
          cases m <;> cases d <;> simp_all [isLooser]
        | _ => cases hlooser
      | _ => cases hoverrideTyped
    | _ => cases hcurrentTyped

/-! ## The rows -/

variable {registry : SettingsRegistry}

theorem lookup_eq_some {key : String} :
    registry.lookup key = some spec ↔ spec ∈ registry.specs ∧ spec.key = key := by
  rw [SettingsRegistry.lookup]
  constructor
  · intro h
    have hkey := List.find?_some h
    exact ⟨List.mem_of_find?_eq_some h, beq_iff_eq.mp hkey⟩
  · rintro ⟨hmem, rfl⟩
    obtain ⟨before, behind, hsplit⟩ := List.append_of_mem hmem
    have hdistinct := registry.distinct
    rw [hsplit, List.map_append, List.map_cons, List.nodup_append] at hdistinct
    refine List.find?_eq_some_iff_append.mpr ⟨by simp, before, behind, hsplit, ?_⟩
    intro other hother
    have hne := hdistinct.2.2 other.key (List.mem_map_of_mem hother) spec.key List.mem_cons_self
    simpa using hne

/-- What a row makes of the value so far. -/
def rowValue (spec : KeySpec) (text : List Char) (current : SettingValue) : SettingValue :=
  match decodeText spec text with
  | none => current
  | some value =>
    match spec.floor with
    | none => value
    | some floor => (applyFloor floor current value).getD current

variable {state next : Resolving}

/-- A row of a key changes the value of that key. -/
theorem lookup_applyRow (h : applyRow spec text state = some next)
    (hcurrent : state.1.lookup spec.key = some current) (key : String) :
    next.1.lookup key =
      if key = spec.key then some (rowValue spec text current) else state.1.lookup key := by
  rw [applyRow] at h
  rw [rowValue]
  cases hdecode : decodeText spec text with
  | none =>
    rw [hdecode] at h
    obtain rfl := Option.some.inj h
    by_cases hkey : key = spec.key
    · rw [if_pos hkey, hkey, hcurrent]
    · rw [if_neg hkey]
  | some value =>
    rw [hdecode] at h
    obtain ⟨floored, hfloored, rfl⟩ := Option.map_eq_some_iff.mp h
    dsimp only
    rw [OrderedDict.lookup_set]
    cases hfloor : spec.floor with
    | none =>
      rw [hfloor] at hfloored
      obtain rfl := Option.some.inj hfloored
      rfl
    | some f =>
      rw [hfloor] at hfloored
      dsimp only at hfloored
      rw [hcurrent, Option.bind_some] at hfloored
      dsimp only
      rw [hfloored]
      rfl

/-- A row of a key leaves the other keys alone. -/
theorem lookup_applyRow_ne (h : applyRow spec text state = some next) {key : String}
    (hkey : key ≠ spec.key) : next.1.lookup key = state.1.lookup key := by
  rw [applyRow] at h
  cases hdecode : decodeText spec text with
  | none =>
    rw [hdecode] at h
    obtain rfl := Option.some.inj h
    rfl
  | some value =>
    rw [hdecode] at h
    obtain ⟨floored, -, rfl⟩ := Option.map_eq_some_iff.mp h
    dsimp only
    rw [OrderedDict.lookup_set, if_neg hkey]

/-- A row leaves a sound value. -/
theorem applyRow_sound (hcurrent : state.1.lookup spec.key = some current)
    (hsound : Sound spec deployed current) : (∃ next, applyRow spec text state = some next) ∧
      Sound spec deployed (rowValue spec text current) := by
  rw [applyRow, rowValue]
  cases hdecode : decodeText spec text with
  | none => exact ⟨⟨state, rfl⟩, hsound⟩
  | some value =>
    have haccepted := accepted_of_decodeText hdecode
    dsimp only
    cases hfloor : spec.floor with
    | none =>
      refine ⟨⟨_, rfl⟩, haccepted, ?_⟩
      intro f hf
      rw [hfloor] at hf
      cases hf
    | some f =>
      obtain ⟨v, hv, hsound'⟩ := applyFloor_sound hfloor hsound haccepted
      dsimp only
      rw [hcurrent, Option.bind_some, hv]
      exact ⟨⟨_, rfl⟩, hsound'⟩

/-- Every declared key has a sound value. -/
def AllSound (registry : SettingsRegistry) (deployed values : List (String × SettingValue)) :
    Prop :=
  ∀ spec ∈ registry.specs, ∃ d v, deployed.lookup spec.key = some d ∧
    values.lookup spec.key = some v ∧ Sound spec d v

/-- Whatever the rows, they apply and leave sound values. -/
theorem applyRows_sound {deployed : List (String × SettingValue)} (scope : Scope)
    (rows : List (String × List Char)) (h : AllSound registry deployed state.1) :
    ∃ next, applyRows registry scope rows state = some next ∧
      AllSound registry deployed next.1 := by
  induction rows generalizing state with
  | nil => exact ⟨state, rfl, h⟩
  | cons row rows ih =>
    obtain ⟨key, text⟩ := row
    rw [applyRows]
    cases hlookup : registry.lookup key with
    | none => exact ih h
    | some spec =>
      obtain ⟨hspec, rfl⟩ := lookup_eq_some.mp hlookup
      dsimp only
      by_cases hscope : spec.scope = scope
      · obtain ⟨d, v, hd, hv, hsound⟩ := h spec hspec
        obtain ⟨⟨next, hnext⟩, hsound'⟩ := @applyRow_sound _ text _ _ _ hv hsound
        have hnextSound : AllSound registry deployed next.1 := by
          intro other hother
          obtain ⟨d', v', hd', hv', hsoundOther⟩ := h other hother
          have hvalue := lookup_applyRow hnext hv other.key
          by_cases hkey : other.key = spec.key
          · have hsame : other = spec := by
              have hother' := lookup_eq_some.mpr ⟨hother, hkey⟩
              exact Option.some.inj (hother'.symm.trans (lookup_eq_some.mpr ⟨hspec, rfl⟩))
            subst hsame
            rw [if_pos rfl] at hvalue
            exact ⟨d, _, hd, hvalue, hsound'⟩
          · rw [if_neg hkey] at hvalue
            exact ⟨d', v', hd', hvalue.trans hv', hsoundOther⟩
        rw [if_pos hscope, hnext]
        exact ih hnextSound
      · rw [if_neg hscope]
        exact ih h

/-- The value of a key after rows that name it at most once. -/
theorem lookup_applyRows {scope : Scope} {rows : List (String × List Char)}
    (hrows : (rows.map Prod.fst).Nodup) (h : applyRows registry scope rows state = some next)
    (hspec : spec ∈ registry.specs) (hcurrent : state.1.lookup spec.key = some current) :
    next.1.lookup spec.key = some (match rows.lookup spec.key with
      | none => current
      | some text => if spec.scope = scope then rowValue spec text current else current) := by
  have hregistered := lookup_eq_some.mpr ⟨hspec, rfl⟩
  induction rows generalizing state current with
  | nil =>
    obtain rfl := Option.some.inj h
    exact hcurrent
  | cons row rows ih =>
    obtain ⟨key, text⟩ := row
    obtain ⟨hnew, htail⟩ := List.nodup_cons.mp hrows
    rw [applyRows] at h
    rw [List.lookup_cons]
    by_cases hkey : spec.key = key
    · subst hkey
      -- the rows behind this one do not name the key
      have hbehind : rows.lookup spec.key = none := OrderedDict.lookup_eq_none.mpr hnew
      rw [hregistered] at h
      rw [beq_self_eq_true]
      dsimp only at h ⊢
      by_cases hscope : spec.scope = scope
      · rw [if_pos hscope] at h ⊢
        obtain ⟨mid, hmid, hrest⟩ := Option.bind_eq_some_iff.mp h
        have hvalue := lookup_applyRow hmid hcurrent spec.key
        rw [if_pos rfl] at hvalue
        have hlast := ih htail hrest hvalue
        rw [hbehind] at hlast
        exact hlast
      · rw [if_neg hscope] at h ⊢
        have hlast := ih htail h hcurrent
        rw [hbehind] at hlast
        exact hlast
    · have hne : (spec.key == key) = false := beq_eq_false_iff_ne.mpr hkey
      rw [hne]
      dsimp only
      cases hlookup : registry.lookup key with
      | none =>
        rw [hlookup] at h
        exact ih htail h hcurrent
      | some other =>
        obtain ⟨-, rfl⟩ := lookup_eq_some.mp hlookup
        rw [hlookup] at h
        dsimp only at h
        by_cases hscope : other.scope = scope
        · rw [if_pos hscope] at h
          obtain ⟨mid, hmid, hrest⟩ := Option.bind_eq_some_iff.mp h
          refine ih htail hrest ?_
          rw [← hcurrent]
          exact lookup_applyRow_ne hmid hkey
        · rw [if_neg hscope] at h
          exact ih htail h hcurrent

/-! ## What is read back -/

/-- What a value's text form decodes to. -/
def readBack : SettingValue → SettingValue
  | .list items => .list (items.flatMap itemsOf)
  | value => value

theorem readAs_encodeText (h : encodeText spec value = some text) :
    readAs spec.type text = some (readBack value) := by
  unfold encodeText at h
  split at h
  next original htype =>
    obtain rfl := Option.some.inj h
    rw [htype]
    rfl
  next n htype =>
    rw [Option.ite_none_right_eq_some] at h
    obtain ⟨hshort, htext⟩ := h
    obtain rfl := Option.some.inj htext
    rw [htype, readAs, pyInt_intText hshort]
    rfl
  next b htype =>
    obtain rfl := Option.some.inj h
    rw [htype]
    cases b with
    | true => decide
    | false => decide
  next items htype =>
    obtain rfl := Option.some.inj h
    rw [htype, readAs, itemsOf_intercalate]
    rfl
  next => cases h

/-- The text of an accepted value is a row that counts. -/
theorem decodeText_encodeText (haccepted : Accepted spec value)
    (h : encodeText spec value = some text) : decodeText spec text = some (readBack value) := by
  refine decodeText_eq_some.mpr ⟨readAs_encodeText h, ?_⟩
  cases value with
  | list items =>
    have htype : spec.type ≠ .str := by
      intro hstr
      have htyped := haccepted.typed
      rw [hstr] at htyped
      cases htyped
    rw [choices_eq_none htype]
    exact ⟨rfl, rfl⟩
  | str text => exact ⟨haccepted.chosen, haccepted.inRange⟩
  | int n => exact ⟨haccepted.chosen, haccepted.inRange⟩
  | bool b => exact ⟨haccepted.chosen, haccepted.inRange⟩

/-- The same value, lists compared as sets. -/
def SameItems : SettingValue → SettingValue → Prop
  | .list items, .list items' => ∀ x, x ∈ items' ↔ x ∈ items
  | value, resolved => resolved = value

/-- A value is read back: the same one, where a floored list is compared as a set. -/
def ReadsBack (spec : KeySpec) (value resolved : SettingValue) : Prop :=
  match spec.floor with
  | none => resolved = value
  | some _ => SameItems value resolved

/-- The items of a list value. -/
def listItems : SettingValue → List (List Char)
  | .list items => items
  | _ => []

/-- The value is no list, or each of its items is clean, or else, under a `union` floor, an item
the deployment has and all of whose pieces are items. -/
def Keeps (spec : KeySpec) (deployed value : SettingValue) : Prop :=
  ∀ x ∈ listItems value, isClean x = true ∨
    spec.floor = some .union ∧ x ∈ listItems deployed ∧ ∀ p ∈ itemsOf x, p ∈ listItems value

variable {items : List (List Char)}

theorem mem_flatMap_clean {x : List Char} (h : x ∈ items.flatMap itemsOf) : isClean x = true := by
  obtain ⟨item, -, hx⟩ := List.mem_flatMap.mp h
  exact isClean_of_mem_itemsOf hx

theorem mem_flatMap_of_clean {x : List Char} (hx : x ∈ items) (hclean : isClean x = true) :
    x ∈ items.flatMap itemsOf := by
  refine List.mem_flatMap.mpr ⟨x, hx, ?_⟩
  rw [itemsOf_clean hclean]
  exact List.mem_singleton_self x

/-- A list without a floor is read back exactly when its items are clean. -/
theorem flatMap_itemsOf_iff : items.flatMap itemsOf = items ↔ ∀ x ∈ items, isClean x = true := by
  constructor
  · intro h x hx
    rw [← h] at hx
    exact mem_flatMap_clean hx
  · exact flatMap_itemsOf_clean

/-- Under a `union` floor: what is not clean must be the deployment's, and its pieces items. -/
theorem union_reads_back {deployed : List (List Char)} (hall : ∀ x ∈ deployed, x ∈ items) :
    (∀ x, x ∈ deployed ++ (items.flatMap itemsOf).filter (fun item => !deployed.contains item) ↔
      x ∈ items) ↔
    ∀ x ∈ items, isClean x = true ∨ x ∈ deployed ∧ ∀ p ∈ itemsOf x, p ∈ items := by
  have hmem : ∀ x, x ∈ deployed ++ (items.flatMap itemsOf).filter
      (fun item => !deployed.contains item) ↔ x ∈ deployed ∨ x ∈ items.flatMap itemsOf := by
    intro x
    rw [List.mem_append, List.mem_filter, Bool.not_eq_true', ← Bool.not_eq_true,
      List.contains_iff_mem]
    by_cases h : x ∈ deployed
    · simp [h]
    · simp [h]
  constructor
  · intro h x hx
    cases hclean : isClean x with
    | true => exact Or.inl rfl
    | false =>
      right
      constructor
      · rcases (hmem x).mp ((h x).mpr hx) with hd | hp
        · exact hd
        · rw [mem_flatMap_clean hp] at hclean
          cases hclean
      · intro p hp
        exact (h p).mp ((hmem p).mpr (Or.inr (List.mem_flatMap.mpr ⟨x, hx, hp⟩)))
  · intro h x
    rw [hmem]
    constructor
    · rintro (hd | hp)
      · exact hall x hd
      · obtain ⟨y, hy, hxy⟩ := List.mem_flatMap.mp hp
        rcases h y hy with hclean | ⟨-, hpieces⟩
        · rw [itemsOf_clean hclean, List.mem_singleton] at hxy
          rw [hxy]
          exact hy
        · exact hpieces x hxy
    · intro hx
      rcases h x hx with hclean | ⟨hd, -⟩
      · exact Or.inr (mem_flatMap_of_clean hx hclean)
      · exact Or.inl hd

/-- Under a `subset` floor a list is read back exactly when its items are clean. -/
theorem subset_reads_back {deployed : List (List Char)} (hall : ∀ x ∈ items, x ∈ deployed) :
    (∀ x, x ∈ deployed.filter (fun item => (items.flatMap itemsOf).contains item) ↔ x ∈ items) ↔
    ∀ x ∈ items, isClean x = true := by
  constructor
  · intro h x hx
    have hkept := (List.mem_filter.mp ((h x).mpr hx)).2
    exact mem_flatMap_clean (List.contains_iff_mem.mp hkept)
  · intro h x
    rw [flatMap_itemsOf_clean h, List.mem_filter, List.contains_iff_mem]
    exact ⟨fun hx => hx.2, fun hx => ⟨hall x hx, hx⟩⟩

/-- An accepted value is read back exactly when the text form keeps it. -/
theorem reads_back_iff (hdeployed : Accepted spec deployed) (haccepted : Accepted spec value)
    (hfloor : ∀ f ∈ spec.floor, isLooser f deployed value = some false)
    (hencoded : encodeText spec value = some text) :
    ReadsBack spec value (rowValue spec text deployed) ↔ Keeps spec deployed value := by
  have htyped := haccepted.typed
  have htyped' := hdeployed.typed
  rw [rowValue, decodeText_encodeText haccepted hencoded]
  dsimp only
  cases hf : spec.floor with
  | none =>
    cases value with
    | list items =>
      have hkeeps : Keeps spec deployed (.list items) ↔ ∀ x ∈ items, isClean x = true := by
        rw [Keeps, hf]
        simp [listItems]
      rw [hkeeps, ← flatMap_itemsOf_iff]
      simp [ReadsBack, hf, readBack]
    | str text => simp [ReadsBack, readBack, Keeps, listItems, hf]
    | int n => simp [ReadsBack, readBack, Keeps, listItems, hf]
    | bool b => simp [ReadsBack, readBack, Keeps, listItems, hf]
  | some f =>
    have htype : floorType f = spec.type := spec.floored f hf
    have hlooser := hfloor f hf
    rw [← htype] at htyped htyped'
    dsimp only
    cases f with
    | min =>
      cases value with
      | int n =>
        cases deployed with
        | int d =>
          have hle : ¬d < n := by simpa [isLooser] using hlooser
          have hmin : min d n = n := by omega
          simp [ReadsBack, SameItems, readBack, Keeps, listItems, applyFloor, hf, hmin]
        | _ => cases htyped'
      | _ => cases htyped
    | union =>
      cases value with
      | list items =>
        cases deployed with
        | list d =>
          have hall : ∀ x ∈ d, x ∈ items := by
            simpa [isLooser, List.all_eq_true, List.contains_iff_mem] using hlooser
          simp only [ReadsBack, hf, applyFloor, readBack, Option.getD_some, SameItems]
          refine (union_reads_back hall).trans ?_
          simp [Keeps, listItems, hf]
        | _ => cases htyped'
      | _ => cases htyped
    | subset =>
      cases value with
      | list items =>
        cases deployed with
        | list d =>
          have hall : ∀ x ∈ items, x ∈ d := by
            simpa [isLooser, List.all_eq_true, List.contains_iff_mem] using hlooser
          simp only [ReadsBack, hf, applyFloor, readBack, Option.getD_some, SameItems]
          refine (subset_reads_back hall).trans ?_
          simp [Keeps, listItems, hf]
        | _ => cases htyped'
      | _ => cases htyped
    | and =>
      cases value with
      | bool b =>
        cases deployed with
        | bool d =>
          have hand : (d && b) = b := by
            cases b <;> cases d <;> simp_all [isLooser]
          simp [ReadsBack, SameItems, readBack, Keeps, listItems, applyFloor, hf, hand]
        | _ => cases htyped'
      | _ => cases htyped

/-! ## Settings -/

/-- A deployment's layer: values of declared keys that were checked. -/
def Deployable (registry : SettingsRegistry) (deployment : List (String × SettingValue)) : Prop :=
  ∀ e ∈ deployment, ∃ spec, registry.lookup e.1 = some spec ∧ checkValue spec e.2 = some e.2

variable {deployment : List (String × SettingValue)}

/-- The deployment has a value for every declared key, one the key accepts. -/
theorem deployed_accepted (h : Deployable registry deployment) (hspec : spec ∈ registry.specs) :
    ∃ d, (deployedValues registry deployment).lookup spec.key = some d ∧ Accepted spec d := by
  have hall : ∀ (layer values : List (String × SettingValue)),
      (∀ e ∈ layer, ∃ spec, registry.lookup e.1 = some spec ∧ checkValue spec e.2 = some e.2) →
      (∃ d, values.lookup spec.key = some d ∧ Accepted spec d) →
      ∃ d, (layer.foldl (fun values e => OrderedDict.set values e.1 e.2) values).lookup spec.key =
        some d ∧ Accepted spec d := by
    intro layer
    induction layer with
    | nil => exact fun values _ hvalues => hvalues
    | cons e layer ih =>
      intro values hlayer hvalues
      refine ih _ (fun e he => hlayer e (List.mem_cons_of_mem _ he)) ?_
      rw [OrderedDict.lookup_set]
      by_cases hkey : spec.key = e.1
      · obtain ⟨other, hother, hchecked⟩ := hlayer e List.mem_cons_self
        have hsame : other = spec :=
          Option.some.inj (hother.symm.trans (lookup_eq_some.mpr ⟨hspec, hkey⟩))
        rw [hsame] at hchecked
        exact ⟨e.2, if_pos hkey, (checkValue_eq_some.mp hchecked).1⟩
      · rw [if_neg hkey]
        exact hvalues
  refine hall deployment _ h ⟨spec.default, ?_, accepted_default spec⟩
  refine OrderedDict.lookup_of_mem ?_ (List.mem_map.mpr ⟨spec, hspec, rfl⟩)
  rw [List.map_map]
  exact registry.distinct

theorem deployed_sound (h : Deployable registry deployment) :
    AllSound registry (deployedValues registry deployment)
      (deployedValues registry deployment) := by
  intro spec hspec
  obtain ⟨d, hd, haccepted⟩ := deployed_accepted h hspec
  refine ⟨d, d, hd, hd, haccepted, fun f hf => isLooser_self ?_⟩
  rw [spec.floored f hf]
  exact haccepted.typed

/-- What the write path accepts. -/
theorem validateOverride_ok (hspec : spec ∈ registry.specs) {scope : Scope}
    {accepted : SettingAccepted}
    (h : validateOverride registry spec.key value deployed scope = some (.ok accepted)) :
    scope ≠ .deployment ∧ spec.scope = scope ∧ Accepted spec value ∧
      (∀ f ∈ spec.floor, isLooser f deployed value = some false) ∧
      encodeText spec value = some accepted.encoded := by
  rw [validateOverride, lookup_eq_some.mpr ⟨hspec, rfl⟩] at h
  dsimp only at h
  split_ifs at h with hscope htype hrange
  · cases h
  · cases h
  · cases h
  · rw [not_or, not_not] at hscope
    rw [Bool.or_eq_true, not_or, Bool.not_eq_true', Bool.not_eq_true', Bool.not_eq_false,
      Bool.not_eq_false] at htype
    obtain ⟨looser, hlooser, hencoded⟩ := Option.bind_eq_some_iff.mp h
    split_ifs at hencoded with hloose
    · cases hencoded
    · obtain ⟨encoded, hencode, heq⟩ := Option.map_eq_some_iff.mp hencoded
      have hsame := Except.ok.inj heq
      refine ⟨hscope.1, hscope.2, ⟨htype.1, htype.2, Bool.eq_false_iff.mpr hrange⟩, ?_, ?_⟩
      · intro f hf
        rw [Option.mem_def] at hf
        rw [hf] at hlooser
        obtain ⟨base, hbase, hisLooser⟩ := Option.bind_eq_some_iff.mp hlooser
        obtain ⟨-, rfl⟩ := checkValue_eq_some.mp hbase
        rw [hisLooser, Bool.eq_false_iff.mpr hloose]
      · rw [hencode, ← hsame]

/-- The value of a key of the written scope is what its row makes of the deployment's. -/
theorem resolved_value {workspaceRows memberRows : List (String × List Char)}
    (hworkspace : (workspaceRows.map Prod.fst).Nodup) (hmember : (memberRows.map Prod.fst).Nodup)
    {resolved : Resolving}
    (h : resolve registry deployment workspaceRows memberRows = some resolved)
    (hspec : spec ∈ registry.specs)
    (hdeployed : (deployedValues registry deployment).lookup spec.key = some deployed)
    (hscope : spec.scope ≠ .deployment)
    (htext : (if spec.scope = .workspace then workspaceRows else memberRows).lookup spec.key =
      some text)
    : resolved.1.lookup spec.key = some (rowValue spec text deployed) := by
  rw [resolve] at h
  obtain ⟨workspace, hfirst, hrest⟩ := Option.bind_eq_some_iff.mp h
  obtain ⟨member, hsecond, rfl⟩ := Option.map_eq_some_iff.mp hrest
  have hmid := lookup_applyRows hworkspace hfirst hspec hdeployed
  have hlast := lookup_applyRows hmember hsecond hspec hmid
  dsimp only at hlast ⊢
  rw [hlast]
  cases hcase : spec.scope with
  | deployment => exact absurd hcase hscope
  | workspace =>
    rw [hcase, if_pos rfl] at htext
    rw [htext]
    cases memberRows.lookup spec.key with
    | none => simp
    | some text => simp
  | member =>
    rw [hcase, if_neg (by decide)] at htext
    rw [htext]
    cases workspaceRows.lookup spec.key with
    | none => simp
    | some text => simp

/-- Settings: whatever rows are stored, every key resolves to a value it accepts and that is not
looser than the deployment's; and an accepted value is read back exactly when the text form keeps
its items. -/
theorem settings_resolved {registry : SettingsRegistry}
    {deployment : List (String × SettingValue)} (hdeployment : Deployable registry deployment) :
    (∀ workspaceRows memberRows, ∃ resolved,
      resolve registry deployment workspaceRows memberRows = some resolved ∧
      ∀ spec ∈ registry.specs, ∃ d v,
        (deployedValues registry deployment).lookup spec.key = some d ∧
        resolved.1.lookup spec.key = some v ∧ matchesType spec.type v = true ∧
        inChoices spec.choices v = true ∧ outOfBounds spec.minimum spec.maximum v = false ∧
        ∀ f ∈ spec.floor, isLooser f d v = some false) ∧
    ∀ spec ∈ registry.specs, ∀ deployed value scope accepted,
      (deployedValues registry deployment).lookup spec.key = some deployed →
      validateOverride registry spec.key value deployed scope = some (.ok accepted) →
      ∀ workspaceRows memberRows, (workspaceRows.map Prod.fst).Nodup →
        (memberRows.map Prod.fst).Nodup →
        (if scope = .workspace then workspaceRows else memberRows).lookup spec.key =
          some accepted.encoded →
        ((∃ resolved v, resolve registry deployment workspaceRows memberRows = some resolved ∧
          resolved.1.lookup spec.key = some v ∧ ReadsBack spec value v) ↔
        Keeps spec deployed value) := by
  have hresolves : ∀ workspaceRows memberRows, ∃ resolved,
      resolve registry deployment workspaceRows memberRows = some resolved ∧
      AllSound registry (deployedValues registry deployment) resolved.1 := by
    intro workspaceRows memberRows
    obtain ⟨workspace, hworkspace, hsound⟩ :=
      @applyRows_sound _ (deployedValues registry deployment, []) _
      .workspace workspaceRows (deployed_sound hdeployment)
    obtain ⟨member, hmember, hsound'⟩ := @applyRows_sound _ (workspace.1, []) _ .member
      memberRows hsound
    refine ⟨(member.1, workspace.2), ?_, hsound'⟩
    rw [resolve, hworkspace, Option.bind_some, hmember, Option.map_some]
  refine ⟨?_, ?_⟩
  · intro workspaceRows memberRows
    obtain ⟨resolved, hresolved, hsound⟩ := hresolves workspaceRows memberRows
    refine ⟨resolved, hresolved, fun spec hspec => ?_⟩
    obtain ⟨d, v, hd, hv, h⟩ := hsound spec hspec
    exact ⟨d, v, hd, hv, h.typed, h.chosen, h.inRange, h.notLooser⟩
  · intro spec hspec deployed value scope accepted hd hok workspaceRows memberRows hworkspace
      hmember htext
    obtain ⟨hscope, rfl, haccepted, hfloor, hencoded⟩ := validateOverride_ok hspec hok
    obtain ⟨resolved, hresolved, -⟩ := hresolves workspaceRows memberRows
    have hvalue := resolved_value hworkspace hmember hresolved hspec hd hscope htext
    obtain ⟨d, hd', hdAccepted⟩ := deployed_accepted hdeployment hspec
    obtain rfl : d = deployed := Option.some.inj (hd'.symm.trans hd)
    rw [← reads_back_iff hdAccepted haccepted hfloor hencoded]
    constructor
    · rintro ⟨resolved', v, hresolved', hv, hback⟩
      obtain rfl := Option.some.inj (hresolved.symm.trans hresolved')
      rw [Option.some.inj (hvalue.symm.trans hv)]
      exact hback
    · exact fun hback => ⟨resolved, _, hresolved, hvalue, hback⟩

/-! ## A sample key -/

/-- The declaration of `runtime.allowed_models`. -/
def sampleSpec : KeySpec where
  key := "runtime.allowed_models"
  type := .strList
  scope := .workspace
  floor := some .subset
  default := .list ["sonnet".toList]
  choices := none
  minimum := none
  maximum := none
  typed := rfl
  floored := by simp [floorType]
  chosen := by simp
  bounded := by simp
  inRange := ⟨rfl, rfl⟩

/-- The one declared key. -/
def sampleRegistry : SettingsRegistry := ⟨[sampleSpec], List.nodup_singleton _⟩

/-- A deployment that allows two models. -/
def sampleDeployment : List (String × SettingValue) :=
  [("runtime.allowed_models", .list ["sonnet".toList, "a,b".toList])]

theorem sampleDeployment_checked : Deployable sampleRegistry sampleDeployment := by
  intro e he
  obtain rfl := List.mem_singleton.mp he
  exact ⟨sampleSpec, lookup_eq_some.mpr ⟨List.mem_singleton_self _, rfl⟩, by decide⟩

/-- A workspace that allows one of the models reads it back. -/
theorem settings_resolved_sample :
    (∀ workspaceRows memberRows, ∃ resolved,
      resolve sampleRegistry sampleDeployment workspaceRows memberRows = some resolved) ∧
    ∃ resolved v, resolve sampleRegistry sampleDeployment
        [("runtime.allowed_models", "sonnet".toList)] [] = some resolved ∧
      resolved.1.lookup "runtime.allowed_models" = some v ∧
      ReadsBack sampleSpec (.list ["sonnet".toList]) v := by
  obtain ⟨hresolves, hreads⟩ := settings_resolved sampleDeployment_checked
  constructor
  · intro workspaceRows memberRows
    obtain ⟨resolved, hresolved, -⟩ := hresolves workspaceRows memberRows
    exact ⟨resolved, hresolved⟩
  · have hback := hreads sampleSpec (List.mem_singleton_self _)
      (.list ["sonnet".toList, "a,b".toList]) (.list ["sonnet".toList]) .workspace
      ⟨"runtime.allowed_models", .list ["sonnet".toList], "sonnet".toList, .strList⟩ (by decide)
      (by rfl) [("runtime.allowed_models", "sonnet".toList)] [] (List.nodup_singleton _)
      List.nodup_nil (by decide)
    refine hback.mpr ?_
    intro x hx
    obtain rfl := List.mem_singleton.mp hx
    exact Or.inl (by decide)

/-- An item with a comma that the deployment allows is accepted and not read back. -/
theorem comma_not_read_back : ∃ accepted,
    validateOverride sampleRegistry "runtime.allowed_models" (.list ["a,b".toList])
      (.list ["sonnet".toList, "a,b".toList]) .workspace = some (.ok accepted) ∧
    ∃ resolved, resolve sampleRegistry sampleDeployment
        [("runtime.allowed_models", accepted.encoded)] [] = some resolved ∧
      resolved.1.lookup "runtime.allowed_models" = some (.list []) ∧
      ¬ReadsBack sampleSpec (.list ["a,b".toList]) (.list []) := by
  refine ⟨⟨"runtime.allowed_models", .list ["a,b".toList], "a,b".toList, .strList⟩, by rfl,
    ([("runtime.allowed_models", .list [])], ["runtime.allowed_models"]), by decide, by decide, ?_⟩
  intro h
  have hmem : "a,b".toList ∈ ([] : List (List Char)) := (h "a,b".toList).mpr List.mem_cons_self
  cases hmem

end Rheostream.Settings
