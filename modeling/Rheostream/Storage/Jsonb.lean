import Rheostream.Foundation.JsonText

/-!
# Documents in a `jsonb` column

What a column gives back of a document written to it. Numbers are kept as exact decimals with
the digits they were written with behind the point: one written with none reads back as an
integer, however large its exponent was, and zero has no sign. Keys come back in an order of
their own, and text with a NUL is not taken at all.
-/

namespace Rheostream

namespace PyFloat

/-- The float `0.0`. -/
def zero : PyFloat := ⟨false, 0, 1, by decide, .inr ⟨rfl, rfl⟩⟩

/-- How many digits behind the decimal point the number's `repr` denotes. -/
def scale (x : PyFloat) : ℕ :=
  if x.usesExponent then (x.digits.length - x.point).toNat
  else max 1 (x.digits.length - x.point).toNat

/-- The number as the column gives it back. -/
def stored (x : PyFloat) : Json :=
  if x.scale = 0 then
    .int ((if x.negative then -1 else 1) *
      (x.significand * 10 ^ (x.point - x.digits.length).toNat : ℕ))
  else .float (if x.significand = 0 then zero else x)

/-- Whether a float is given back as itself. -/
def isStable (x : PyFloat) : Bool := x.point ≤ 16 && !(x.negative && x.significand = 0)

end PyFloat

/-- The order of keys in a `jsonb` object: shorter ones first, then by their bytes, which is by
code points. -/
def jsonbKeyLe {V : Type} (member member' : String × V) : Bool :=
  member.1.utf8ByteSize < member'.1.utf8ByteSize ||
    member.1.utf8ByteSize = member'.1.utf8ByteSize && member.1 ≤ member'.1

namespace Json

mutual

/-- A document as the column gives it back. -/
def stored : Json → Json
  | float value => value.stored
  | arr items => arr (storedItems items)
  | obj members => obj ((storedMembers members).insertionSort fun m m' => jsonbKeyLe m m')
  | value => value

def storedItems : List Json → List Json
  | [] => []
  | item :: items => item.stored :: storedItems items

def storedMembers : List (String × Json) → List (String × Json)
  | [] => []
  | (key, value) :: members => (key, value.stored) :: storedMembers members

end

/-- Whether a value's own text has no NUL. -/
def hasNoNul : Json → Bool
  | str value => !value.toList.contains '\x00'
  | obj members => members.all fun member => !member.1.toList.contains '\x00'
  | _ => true

/-- Writing a document to a `jsonb` column and reading it back. -/
def jsonb (document : Json) : Option Json :=
  if document.all hasNoNul then some document.stored else none

/-- Whether a value is not a float, or one that is given back as itself. -/
def isStableNumber : Json → Bool
  | float value => value.isStable
  | _ => true

/-- Whether every number of a document is given back as itself. -/
def isStable (document : Json) : Bool := document.all isStableNumber

theorem storedItems_eq (items : List Json) : storedItems items = items.map stored := by
  induction items with
  | nil => rfl
  | cons item items ih => rw [storedItems, ih, List.map_cons]

theorem storedMembers_eq (members : List (String × Json)) :
    storedMembers members = members.map fun m => (m.1, m.2.stored) := by
  induction members with
  | nil => rfl
  | cons member members ih => rw [storedMembers, ih, List.map_cons]

end Json

section Numbers

variable {x : PyFloat}

private theorem digits_length_le (x : PyFloat) : x.digits.length ≤ 17 :=
  (Nat.length_toDigits_le_iff (by decide) (by decide)).mpr x.digits_le

/-- Only exponent notation above the digits leaves none behind the point. -/
private theorem scale_eq_zero : x.scale = 0 ↔ 16 < x.point := by
  have hdigits := digits_length_le x
  unfold PyFloat.scale PyFloat.usesExponent
  split
  case isTrue h =>
    simp only [Bool.or_eq_true, decide_eq_true_eq] at h
    omega
  case isFalse h =>
    simp only [Bool.or_eq_true, decide_eq_true_eq, not_or] at h
    omega

/-- An integer is printed without an `e`. -/
private theorem e_not_mem_intText (n : ℤ) : 'e' ∉ intText n := by
  intro h
  unfold intText at h
  rcases List.mem_append.mp h with hsign | hdigits
  · split at hsign <;> simp at hsign
  · have hdigit := Nat.isDigit_of_mem_toDigits (by decide) (by decide) hdigits
    revert hdigit
    decide

private theorem e_mem_repr (h : 16 < x.point) : 'e' ∈ x.repr := by
  have hexponent : x.usesExponent = true := by simp [PyFloat.usesExponent, h]
  simp [PyFloat.repr, hexponent, PyFloat.scientific]

/-- A number prints the same after the column exactly if it is given back as itself. -/
theorem text_stored_float (x : PyFloat) : x.stored.text = x.repr ↔ x.isStable = true := by
  unfold PyFloat.stored
  split
  case isTrue hscale =>
    have hlarge := scale_eq_zero.mp hscale
    refine ⟨fun h => ?_, fun h => ?_⟩
    · have he := e_mem_repr hlarge
      rw [← h] at he
      exact absurd he (e_not_mem_intText _)
    · simp only [PyFloat.isStable, Bool.and_eq_true, decide_eq_true_eq] at h
      omega
  case isFalse hscale =>
    have hsmall : x.point ≤ 16 := not_lt.mp (mt scale_eq_zero.mpr hscale)
    by_cases hzero : x.significand = 0
    · obtain ⟨negative, significand, point, hle, hshortest⟩ := x
      simp only at hzero hsmall
      subst hzero
      obtain rfl : point = 1 := by simpa using hshortest
      cases negative with
      | false => exact iff_of_true rfl rfl
      | true =>
        have hsign : (Json.float PyFloat.zero).text ≠
            (⟨true, 0, 1, by decide, .inr ⟨rfl, rfl⟩⟩ : PyFloat).repr := by decide
        exact iff_of_false hsign (by decide +revert)
    · simp [PyFloat.isStable, hzero, hsmall, Json.text]

theorem isNumberChar_stored {c : Char} (h : c ∈ x.stored.text) : IsNumberChar c := by
  unfold PyFloat.stored at h
  split at h
  · exact isNumberChar_intText h
  · exact isNumberChar_repr h

end Numbers

section Documents

open Json

/-- The keys of a dictionary in their order do not depend on the order they came in. -/
private theorem sortKeys_eq_of_perm {V : Type} {l l' : List (String × V)} (hperm : l.Perm l')
    (hkeys : (l.map Prod.fst).Nodup) : sortKeys l = sortKeys l' := by
  have hsorted : ∀ l : List (String × V), (sortKeys l).Pairwise fun m m' => m.1 ≤ m'.1 :=
    fun l => List.pairwise_insertionSort (fun m m' : String × V => m.1 ≤ m'.1) l
  refine List.Perm.eq_of_pairwise (fun m m' hm hm' hle hle' => ?_) (hsorted l) (hsorted l')
    ((List.perm_insertionSort _ l).trans (hperm.trans (List.perm_insertionSort _ l').symm))
  have hm : m ∈ l := (List.perm_insertionSort _ l).mem_iff.mp hm
  have hm' : m' ∈ l := hperm.mem_iff.mpr ((List.perm_insertionSort _ l').mem_iff.mp hm')
  exact List.inj_on_of_nodup_map hkeys hm hm' (le_antisymm hle hle')

private theorem sortKeys_map {V W : Type} (f : V → W) (l : List (String × V)) :
    sortKeys (l.map fun m => (m.1, f m.2)) = (sortKeys l).map fun m => (m.1, f m.2) :=
  (List.map_insertionSort (fun m m' : String × V => m.1 ≤ m'.1)
    (fun m m' : String × W => m.1 ≤ m'.1) (fun m => (m.1, f m.2)) l fun _ _ _ _ => Iff.rfl).symm

/-- The members of an object as it is printed, before and after the column. -/
private theorem members_stored {members : List (String × Json)}
    (hkeys : (members.map Prod.fst).Nodup) :
    ∃ printed : List (String × Json), printed.Perm members ∧
      (obj members).text = '{' :: separated ',' '}'
        (printed.map fun m => memberText (m.1, m.2.text)) ∧
      (obj members).stored.text = '{' :: separated ',' '}'
        (printed.map fun m => memberText (m.1, m.2.stored.text)) := by
  refine ⟨sortKeys members, List.perm_insertionSort _ members, ?_, ?_⟩
  · rw [text, memberTexts_eq, sortKeys_map, List.map_map]
    rfl
  · rw [stored, text, memberTexts_eq, storedMembers_eq, sortKeys_map]
    have hreordered : sortKeys ((members.map fun m => (m.1, m.2.stored)).insertionSort
        fun m m' => jsonbKeyLe m m') = sortKeys (members.map fun m => (m.1, m.2.stored)) := by
      refine (sortKeys_eq_of_perm (List.perm_insertionSort _ _).symm ?_).symm
      rwa [List.map_map]
    rw [hreordered, sortKeys_map, List.map_map, List.map_map]
    rfl

private theorem comma_close : ¬IsNumberChar ',' ∧ ¬IsNumberChar ']' ∧ ¬IsNumberChar '}' := by
  decide

private theorem items_stored (items : List Json) :
    (arr items).text = '[' :: separated ',' ']' (items.map text) ∧
      (arr items).stored.text = '[' :: separated ',' ']' (items.map fun i => i.stored.text) := by
  rw [stored, text, text, itemTexts_eq, itemTexts_eq, storedItems_eq, List.map_map]
  exact ⟨rfl, rfl⟩

private theorem delimited_member {key : String} {a b : List Char} (h : Delimited IsNumberChar a b) :
    Delimited IsNumberChar (memberText (key, a)) (memberText (key, b)) := by
  simpa only [memberText, List.append_assoc, List.singleton_append] using
    h.append_left (stringText key ++ [':'])

/-- A value and what the column gives back of it are printed so that they come apart. -/
private theorem delimited_stored (document : Json) (hdocument : document.isDocument = true) :
    Delimited IsNumberChar document.stored.text document.text := by
  obtain ⟨hcomma, hbracket, hbrace⟩ := comma_close
  induction document using Json.induct with
  | null | bool | int | str => exact .refl _
  | float value =>
    exact .of_tokens (fun _ => isNumberChar_stored) fun _ => isNumberChar_repr
  | arr items ih =>
    have hitems := (all_arr.mp hdocument).2
    obtain ⟨htext, hstored⟩ := items_stored items
    rw [htext, hstored]
    exact (Delimited.separated_map hcomma hbracket fun item hitem =>
      ih item hitem (hitems item hitem)).append_left ['[']
  | obj members ih =>
    obtain ⟨hkeys, hvalues⟩ := all_obj.mp hdocument
    obtain ⟨printed, hperm, htext, hstored⟩ := members_stored (of_decide_eq_true hkeys)
    rw [htext, hstored]
    refine (Delimited.separated_map hcomma hbrace fun member hmember => ?_).append_left ['{']
    have hmember := hperm.mem_iff.mp hmember
    exact delimited_member (ih member hmember (hvalues member hmember))

/-- A document prints the same after the column exactly if all its numbers are given back as
themselves. -/
theorem text_stored (document : Json) (hdocument : document.isDocument = true) :
    document.stored.text = document.text ↔ document.isStable = true := by
  obtain ⟨hcomma, hbracket, hbrace⟩ := comma_close
  induction document using Json.induct with
  | null | bool | int | str => exact iff_of_true rfl rfl
  | float value => exact text_stored_float value
  | arr items ih =>
    have hitems := (all_arr.mp hdocument).2
    obtain ⟨htext, hstored⟩ := items_stored items
    rw [htext, hstored, List.cons.injEq, and_iff_right rfl, isStable, all_arr,
      and_iff_right (show (arr items).isStableNumber = true from rfl),
      separated_map_inj hcomma hbracket fun item hitem =>
        delimited_stored item (hitems item hitem)]
    exact forall₂_congr fun item hitem => ih item hitem (hitems item hitem)
  | obj members ih =>
    obtain ⟨hkeys, hvalues⟩ := all_obj.mp hdocument
    obtain ⟨printed, hperm, htext, hstored⟩ := members_stored (of_decide_eq_true hkeys)
    have hprinted : ∀ member ∈ printed, Delimited IsNumberChar
        (memberText (member.1, member.2.stored.text)) (memberText (member.1, member.2.text)) :=
      fun member hmember =>
        delimited_member (delimited_stored _ (hvalues member (hperm.mem_iff.mp hmember)))
    rw [htext, hstored, List.cons.injEq, and_iff_right rfl, isStable, all_obj,
      and_iff_right (show (obj members).isStableNumber = true from rfl),
      separated_map_inj hcomma hbrace hprinted]
    refine forall_congr' fun member => ?_
    rw [hperm.mem_iff]
    refine forall_congr' fun hmember => ?_
    rw [memberText, memberText, List.append_cancel_left_eq, List.cons.injEq, and_iff_right rfl]
    exact ih member hmember (hvalues member hmember)

end Documents

end Rheostream
