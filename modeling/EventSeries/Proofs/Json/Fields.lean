import EventSeries.Json.Record
import EventSeries.Proofs.Identifier.Text
import EventSeries.Proofs.Json.Text
import EventSeries.Proofs.Text.Timestamp

/-
  The fields of records are read back as they were written:
  scalars, names, values that may be null, lists, and the
  slots of an object that has all of its fields.

  Main declarations:
    * `Instant.Written`
    * `readInstant_ofInstant`
    * `readName_name`
    * `readNullOr_ofOption`
    * `readList_ofList`
    * `Record.ofFields`
    * `Record.read_object`
-/

namespace EventSeries

------------------------------------------------------------
-- Plain Values
------------------------------------------------------------

namespace Json

@[simp] theorem plain_text
    (s : String) :
    Plain (.text s) :=
  .text s

@[simp] theorem plain_bool
    (b : Bool) :
    Plain (.bool b) :=
  .bool b

@[simp] theorem plain_ofNat
    (n : Nat) :
    Plain (.ofNat n) :=
  .integer n

@[simp] theorem plain_ofByte
    (n : UInt8) :
    Plain (.ofByte n) :=
  .integer n.toNat

@[simp] theorem plain_ofInstant
    (t : Instant) :
    Plain (.ofInstant t) :=
  .text t.text

@[simp] theorem plain_ofId
    (id : Id) :
    Plain (.ofId id) :=
  .text id.text

variable {α : Type}
variable {write : α → Json}

@[simp] theorem plain_ofOption
    (hWrite : ∀ a, Plain (write a))
    (o : Option α) :
    Plain (.ofOption write o) := by
  cases o with
  | none => exact .null
  | some a => exact hWrite a

@[simp] theorem plain_ofList
    (hWrite : ∀ a, Plain (write a))
    (as : List α) :
    Plain (.ofList write as) := by
  apply Plain.array
  intro j hMember
  rcases List.mem_map.mp hMember with ⟨a, _, rfl⟩
  exact hWrite a

end Json

------------------------------------------------------------
-- Scalars
------------------------------------------------------------

/- An instant that its text determines. -/
def Instant.Written
    (t : Instant) : Prop :=
  t.InCalendar ∧ t.isLeap = false

instance
    (t : Instant) :
    Decidable t.Written := by
  unfold Instant.Written
  infer_instance

theorem readInstant_ofInstant
    {t : Instant}
    (hWritten : t.Written) :
    readInstant (.ofInstant t) = pure t := by
  rcases hWritten with ⟨hInside, hLeap⟩
  rw [Instant.isLeap, decide_eq_false_iff_not, Nat.not_le]
    at hLeap
  rw [Json.ofInstant, readInstant,
    Instant.ofText?_text hInside hLeap, Reading.require]

theorem readId_ofId
    (id : Id) :
    readId (.ofId id) = pure id := by
  rw [Json.ofId, readId, Id.ofText?_text, Reading.require]

theorem readNat_ofNat
    {width n : Nat}
    (hLess : n < 2 ^ width) :
    readNat width (.ofNat n) = pure n := by
  have hRange :
      (0 : Int) ≤ n ∧ (n : Int) ≤ (1 <<< width : Nat) - 1 := by
    rw [Nat.one_shiftLeft]
    omega
  rw [readNat, Json.ofNat, readInt, if_pos hRange, pure_bind,
    Int.toNat_natCast]

theorem readByte_ofByte
    (n : UInt8) :
    readByte (.ofByte n) = pure n := by
  rw [readByte, Json.ofByte, readNat_ofNat n.toNat_lt,
    pure_bind, UInt8.ofNat_toNat]

------------------------------------------------------------
-- Names
------------------------------------------------------------

/- With distinct names, each value is found by its name. -/
theorem lookup_of_mem
    {α : Type}
    {table : List (String × α)}
    {name : String}
    {a : α}
    (hDistinct : (table.map (·.1)).Nodup)
    (hMember : (name, a) ∈ table) :
    table.lookup name = some a := by
  induction table with
  | nil => cases hMember
  | cons row table ih =>
      rcases row with ⟨first, value⟩
      rw [List.map_cons, List.nodup_cons] at hDistinct
      rcases List.mem_cons.mp hMember with hHere | hLater
      · cases hHere
        exact List.lookup_cons_self
      · have hOther : (name == first) = false := by
          rw [beq_eq_false_iff_ne]
          intro hSame
          exact hDistinct.1
            (List.mem_map.mpr ⟨(name, a), hLater, hSame⟩)
        rw [List.lookup_cons, hOther]
        exact ih hDistinct.2 hLater

/-
  In a table of the distinct names of all values, each value
  is read back from its name.
-/
theorem readName_name
    {α : Type}
    {as : List α}
    {name : α → String}
    (hDistinct : (as.map name).Nodup)
    (hAll : ∀ a, a ∈ as)
    (a : α) :
    readName (as.map fun a => (name a, a)) (.text (name a)) =
      pure a := by
  have hNames :
      (as.map fun a => (name a, a)).map (·.1) = as.map name := by
    rw [List.map_map]
    rfl
  have hFound :
      (as.map fun a => (name a, a)).lookup (name a) = some a :=
    lookup_of_mem (hNames ▸ hDistinct)
      (List.mem_map.mpr ⟨a, hAll a, rfl⟩)
  rw [readName, hFound, Reading.require]

------------------------------------------------------------
-- Options And Lists
------------------------------------------------------------

section

variable {α : Type}
variable {read : Json → Reading α}
variable {write : α → Json}

/- What is there is not written as null. -/
theorem readNullOr_ofOption
    {o : Option α}
    (hNull : ∀ a, write a ≠ .null)
    (hRead : ∀ a ∈ o, read (write a) = pure a) :
    readNullOr read (.ofOption write o) = pure o := by
  cases o with
  | none => rfl
  | some a =>
      have hValue : read (write a) = pure a := hRead a rfl
      rw [Json.ofOption]
      unfold readNullOr
      split
      · rename_i hSame
        exact absurd hSame (hNull a)
      · rw [hValue, map_pure]

/- An instant that may be absent. -/
theorem readNullOr_ofInstant
    {o : Option Instant}
    (hWritten : ∀ t ∈ o.toList, t.Written) :
    readNullOr readInstant (.ofOption .ofInstant o) =
      pure o := by
  apply readNullOr_ofOption
  · nofun
  · intro t hMember
    exact readInstant_ofInstant
      (hWritten t (Option.mem_toList.mpr hMember))

theorem readNullOr_ofId
    (o : Option Id) :
    readNullOr readId (.ofOption .ofId o) = pure o := by
  apply readNullOr_ofOption
  · nofun
  · intro id _
    exact readId_ofId id

theorem readNullOr_ofByte
    (o : Option UInt8) :
    readNullOr readByte (.ofOption .ofByte o) = pure o := by
  apply readNullOr_ofOption
  · nofun
  · intro n _
    exact readByte_ofByte n

theorem readList_ofList
    {as : List α}
    (hRead : ∀ a ∈ as, read (write a) = pure a) :
    readList read (.ofList write as) = pure as := by
  rw [Json.ofList, readList]
  induction as with
  | nil => rfl
  | cons a as ih =>
      rw [List.forall_mem_cons] at hRead
      rw [List.map_cons, List.mapM_cons, hRead.1, pure_bind,
        ih hRead.2, pure_bind]

end

------------------------------------------------------------
-- Records
------------------------------------------------------------

namespace Record

/- The record that has been given all of its fields. -/
def ofFields
    (fields : List (String × Json)) : Record where
  slots := fields.map fun (name, j) => (name, .given j)

variable {fields : List (String × Json)}

/- With distinct names, no field stands twice. -/
theorem isUnambiguous_of_nodup
    (hDistinct : (fields.map (·.1)).Nodup)
    (name : String) :
    isUnambiguous fields name = true := by
  have hCount : (fields.map (·.1)).count name ≤ 1 :=
    List.nodup_iff_count.mp hDistinct name
  rw [List.count, List.countP_map,
    List.countP_eq_length_filter] at hCount
  exact decide_eq_true hCount

/- An object of all fields is read as they stand in it. -/
theorem read_object
    (names : List String)
    (hNames : fields.map (·.1) = names)
    (hDistinct : names.Nodup) :
    read names (.object fields) = pure (ofFields fields) := by
  subst hNames
  have hUnambiguous :
      (fields.map (·.1)).all (isUnambiguous fields) = true := by
    rw [List.all_eq_true]
    intro name _
    exact isUnambiguous_of_nodup hDistinct name
  have hSlots :
      (fields.map (·.1)).map
          (fun name => (name, slotOfMembers fields name)) =
        fields.map fun (name, j) => (name, .given j) := by
    rw [List.map_map]
    apply List.map_congr_left
    rintro ⟨name, j⟩ hMember
    simp [slotOfMembers, lookup_of_mem hDistinct hMember]
  rw [read, ofMembers?, if_pos hUnambiguous, hSlots,
    Reading.require, ofFields]

/- The slot of a field is found by going over the fields. -/
theorem slot_ofFields_cons
    (first : String)
    (j : Json)
    (name : String) :
    (ofFields ((first, j) :: fields)).slot name =
      if name = first then
        .given j
      else
        (ofFields fields).slot name := by
  by_cases hHere : name = first
  · simp [slot, ofFields, hHere]
  · have hOther : (name == first) = false := by
      simpa using hHere
    simp [slot, ofFields, List.lookup_cons, hHere, hOther]

end Record

end EventSeries
