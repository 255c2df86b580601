import EventSeries.Proofs.Json.Literals

/-
  The compact and the indented form of a JSON text are layouts
  of one form: they differ in the blanks in front of items and
  members and behind colons.

  Main declarations:
    * `Json.Layout`
    * `Json.Layout.write`
    * `Json.Layout.length_le_write`
    * `Json.compactOnto_eq`
    * `Json.prettyOnto_eq`
-/

namespace EventSeries.Json

------------------------------------------------------------
-- Layouts
------------------------------------------------------------

/- The text is made of blanks. -/
def IsBlankText
    (cs : List Char) : Prop :=
  ∀ c ∈ cs, isSpace c = true

/- Blanks in front of items and members, and behind colons. -/
structure Layout where
  newLine : Nat → List Char
  afterColon : List Char
  newLine_blank : ∀ level, IsBlankText (newLine level)
  afterColon_blank : IsBlankText afterColon

namespace Layout

mutual

/- A value in a layout, in front of what follows it. -/
def write
    (l : Layout)
    (level : Nat) :
    Json → List Char → List Char
  | .null, rest => nullChars ++ rest
  | .bool b, rest => boolChars b ++ rest
  | .integer n, rest => signedDigits n ++ rest
  | .decimal literal, rest => literal ++ rest
  | .text s, rest => stringOnto s rest
  | .broken, rest => brokenChars ++ rest
  | .array [], rest => '[' :: ']' :: rest
  | .array (item :: items), rest =>
      '[' :: (l.newLine (level + 1)
        ++ l.write (level + 1) item
          (l.writeItems level items rest))
  | .object [], rest => '\x7b' :: '\x7d' :: rest
  | .object ((key, value) :: members), rest =>
      '\x7b' :: (l.newLine (level + 1)
        ++ stringOnto key (':' :: (l.afterColon
          ++ l.write (level + 1) value
            (l.writeMembers level members rest))))

/- The items behind the first, and the end of the array. -/
def writeItems
    (l : Layout)
    (level : Nat) :
    List Json → List Char → List Char
  | [], rest => l.newLine level ++ ']' :: rest
  | item :: items, rest =>
      ',' :: (l.newLine (level + 1)
        ++ l.write (level + 1) item
          (l.writeItems level items rest))

/- The members behind the first, and the end of the object. -/
def writeMembers
    (l : Layout)
    (level : Nat) :
    List (String × Json) → List Char → List Char
  | [], rest => l.newLine level ++ '\x7d' :: rest
  | (key, value) :: members, rest =>
      ',' :: (l.newLine (level + 1)
        ++ stringOnto key (':' :: (l.afterColon
          ++ l.write (level + 1) value
            (l.writeMembers level members rest))))

end

/- The layout without blanks. -/
def compact : Layout where
  newLine _ := []
  afterColon := []
  newLine_blank _ _ hMember := nomatch hMember
  afterColon_blank _ hMember := nomatch hMember

/- The layout with one item a line. -/
def pretty : Layout where
  newLine level := newLineOnto level []
  afterColon := [' ']
  newLine_blank level c hMember := by
    simp only [newLineOnto, List.append_nil, List.mem_cons,
      List.mem_replicate] at hMember
    rcases hMember with rfl | ⟨_, rfl⟩ <;> rfl
  afterColon_blank := by
    intro c hMember
    rw [List.mem_singleton] at hMember
    rw [hMember]
    rfl

------------------------------------------------------------
-- Lengths
------------------------------------------------------------

mutual

/- A value stands in front of what follows it. -/
theorem length_le_write
    (l : Layout)
    (level : Nat)
    (j : Json)
    (rest : List Char) :
    rest.length ≤ (l.write level j rest).length := by
  match j with
  | .null | .bool _ | .integer _ | .decimal _ | .broken =>
      simp [write]
  | .array [] | .object [] =>
      simp only [write, List.length_cons]
      omega
  | .text s =>
      exact Nat.le_of_lt (length_lt_stringOnto s rest)
  | .array (item :: items) =>
      have hItem := length_le_write l (level + 1) item
        (l.writeItems level items rest)
      have hItems := length_le_writeItems l level items rest
      simp only [write, List.length_cons, List.length_append]
      omega
  | .object ((key, value) :: members) =>
      have hKey := length_lt_stringOnto key
        (':' :: (l.afterColon ++ l.write (level + 1) value
          (l.writeMembers level members rest)))
      have hValue := length_le_write l (level + 1) value
        (l.writeMembers level members rest)
      have hMembers :=
        length_le_writeMembers l level members rest
      simp only [write, List.length_cons, List.length_append]
        at hKey ⊢
      omega

theorem length_le_writeItems
    (l : Layout)
    (level : Nat)
    (items : List Json)
    (rest : List Char) :
    rest.length ≤ (l.writeItems level items rest).length := by
  match items with
  | [] =>
      simp only [writeItems, List.length_append,
        List.length_cons]
      omega
  | item :: items =>
      have hItem := length_le_write l (level + 1) item
        (l.writeItems level items rest)
      have hItems := length_le_writeItems l level items rest
      simp only [writeItems, List.length_cons,
        List.length_append]
      omega

theorem length_le_writeMembers
    (l : Layout)
    (level : Nat)
    (members : List (String × Json))
    (rest : List Char) :
    rest.length ≤
      (l.writeMembers level members rest).length := by
  match members with
  | [] =>
      simp only [writeMembers, List.length_append,
        List.length_cons]
      omega
  | (key, value) :: members =>
      have hKey := length_lt_stringOnto key
        (':' :: (l.afterColon ++ l.write (level + 1) value
          (l.writeMembers level members rest)))
      have hValue := length_le_write l (level + 1) value
        (l.writeMembers level members rest)
      have hMembers :=
        length_le_writeMembers l level members rest
      simp only [writeMembers, List.length_cons,
        List.length_append] at hKey ⊢
      omega

end

end Layout

------------------------------------------------------------
-- The Two Forms
------------------------------------------------------------

mutual

theorem compactOnto_eq
    (level : Nat)
    (j : Json)
    (rest : List Char) :
    compactOnto j rest = Layout.compact.write level j rest := by
  match j with
  | .null | .bool _ | .integer _ | .decimal _ | .text _
  | .broken | .array [] | .object [] => rfl
  | .array (item :: items) =>
      rw [compactOnto, Layout.write,
        compactItemsOnto_eq level items rest,
        compactOnto_eq (level + 1) item]
      rfl
  | .object ((key, value) :: members) =>
      rw [compactOnto, Layout.write,
        compactMembersOnto_eq level members rest,
        compactOnto_eq (level + 1) value]
      rfl

theorem compactItemsOnto_eq
    (level : Nat)
    (items : List Json)
    (rest : List Char) :
    compactItemsOnto items rest =
      Layout.compact.writeItems level items rest := by
  match items with
  | [] => rfl
  | item :: items =>
      rw [compactItemsOnto, Layout.writeItems,
        compactItemsOnto_eq level items rest,
        compactOnto_eq (level + 1) item]
      rfl

theorem compactMembersOnto_eq
    (level : Nat)
    (members : List (String × Json))
    (rest : List Char) :
    compactMembersOnto members rest =
      Layout.compact.writeMembers level members rest := by
  match members with
  | [] => rfl
  | (key, value) :: members =>
      rw [compactMembersOnto, Layout.writeMembers,
        compactMembersOnto_eq level members rest,
        compactOnto_eq (level + 1) value]
      rfl

end

theorem newLineOnto_eq
    (level : Nat)
    (rest : List Char) :
    newLineOnto level rest =
      Layout.pretty.newLine level ++ rest := by
  simp [newLineOnto, Layout.pretty]

mutual

theorem prettyOnto_eq
    (level : Nat)
    (j : Json)
    (rest : List Char) :
    prettyOnto level j rest =
      Layout.pretty.write level j rest := by
  match j with
  | .null | .bool _ | .integer _ | .decimal _ | .text _
  | .broken | .array [] | .object [] => rfl
  | .array (item :: items) =>
      rw [prettyOnto, Layout.write, newLineOnto_eq,
        prettyItemsOnto_eq level items rest,
        prettyOnto_eq (level + 1) item]
  | .object ((key, value) :: members) =>
      rw [prettyOnto, Layout.write, newLineOnto_eq,
        prettyMembersOnto_eq level members rest,
        prettyOnto_eq (level + 1) value]
      rfl

theorem prettyItemsOnto_eq
    (level : Nat)
    (items : List Json)
    (rest : List Char) :
    prettyItemsOnto level items rest =
      Layout.pretty.writeItems level items rest := by
  match items with
  | [] => exact newLineOnto_eq level _
  | item :: items =>
      rw [prettyItemsOnto, Layout.writeItems, newLineOnto_eq,
        prettyItemsOnto_eq level items rest,
        prettyOnto_eq (level + 1) item]

theorem prettyMembersOnto_eq
    (level : Nat)
    (members : List (String × Json))
    (rest : List Char) :
    prettyMembersOnto level members rest =
      Layout.pretty.writeMembers level members rest := by
  match members with
  | [] => exact newLineOnto_eq level _
  | (key, value) :: members =>
      rw [prettyMembersOnto, Layout.writeMembers,
        newLineOnto_eq,
        prettyMembersOnto_eq level members rest,
        prettyOnto_eq (level + 1) value]
      rfl

end

end EventSeries.Json
