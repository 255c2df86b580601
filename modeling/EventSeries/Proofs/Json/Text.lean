import EventSeries.Proofs.Json.Layout

/-
  A JSON value is read back from its text, in the compact form
  and in the indented one, as in any layout.  The reading
  passes over the blanks of a layout, and a number in it ends
  where its value ends.

  Main declarations:
    * `Json.Plain`
    * `Json.Layout.IsRead`
    * `Json.Layout.items?_write`
    * `Json.Layout.members?_write`
    * `Json.Layout.isRead_of_plain`
    * `Json.ofText?_compact`
    * `Json.ofText?_pretty`
-/

namespace EventSeries.Json

------------------------------------------------------------
-- Values That Are Their Texts
------------------------------------------------------------

/-
  The value has no number that is kept as it was written, and
  nothing broken.
-/
inductive Plain : Json → Prop where
  | null : Plain .null
  | bool (b : Bool) : Plain (.bool b)
  | integer (n : Int) : Plain (.integer n)
  | text (s : String) : Plain (.text s)
  | array
      {items : List Json}
      (hItems : ∀ j ∈ items, Plain j) :
      Plain (.array items)
  | object
      {members : List (String × Json)}
      (hMembers : ∀ member ∈ members, Plain member.2) :
      Plain (.object members)

------------------------------------------------------------
-- Blanks
------------------------------------------------------------

variable {blanks rest : List Char}

theorem skipSpace_append
    (hBlanks : IsBlankText blanks)
    (cs : List Char) :
    skipSpace (blanks ++ cs) = skipSpace cs := by
  unfold skipSpace
  rw [List.dropWhile_append_of_pos hBlanks]

theorem skipSpace_cons
    {c : Char}
    (hOther : isSpace c = false)
    (cs : List Char) :
    skipSpace (c :: cs) = c :: cs := by
  simp [skipSpace, hOther]

/- Blanks in front of a value make no difference. -/
theorem value?_append
    (hBlanks : IsBlankText blanks)
    (fuel : Nat)
    (cs : List Char) :
    value? fuel (blanks ++ cs) = value? fuel cs := by
  cases fuel with
  | zero => rw [value?, value?]
  | succ fuel =>
      rw [value?, value?, skipSpace_append hBlanks]

theorem items?_append
    (hBlanks : IsBlankText blanks)
    (fuel : Nat)
    (cs : List Char) :
    items? fuel (blanks ++ cs) = items? fuel cs := by
  cases fuel with
  | zero => rw [items?, items?]
  | succ fuel =>
      rw [items?, items?, value?_append hBlanks]

theorem members?_append
    (hBlanks : IsBlankText blanks)
    (fuel : Nat)
    (cs : List Char) :
    members? fuel (blanks ++ cs) = members? fuel cs := by
  cases fuel with
  | zero => rw [members?, members?]
  | succ fuel =>
      rw [members?, members?, skipSpace_append hBlanks]

------------------------------------------------------------
-- Ends Of Numbers
------------------------------------------------------------

theorem endsNumber_cons
    {c : Char}
    (hDigit : c.isDigit = false)
    (hOther : c ≠ '.' ∧ c ≠ 'e' ∧ c ≠ 'E') :
    EndsNumber (c :: rest) where
  noDigit := noDigitFirst_cons hDigit
  noPoint := by simpa using hOther.1
  noExponent := by simpa using hOther.2

/- Blanks end a number, as what stands behind them does. -/
theorem endsNumber_append
    (hBlanks : IsBlankText blanks)
    (hEnd : EndsNumber rest) :
    EndsNumber (blanks ++ rest) := by
  cases blanks with
  | nil => exact hEnd
  | cons c cs =>
      have hSpace := hBlanks c List.mem_cons_self
      simp only [isSpace, Bool.or_eq_true, beq_iff_eq]
        at hSpace
      rcases hSpace with ((rfl | rfl) | rfl) | rfl <;>
        exact endsNumber_cons (by decide) (by decide)

------------------------------------------------------------
-- Single Values
------------------------------------------------------------

namespace Layout

variable {l : Layout}
variable {level fuel : Nat}

/- The first characters of values. -/
def startsValue
    (c : Char) : Bool :=
  !isSpace c && c != ']'

theorem startsValue_of_numeric
    {c : Char}
    (hNumeric : Numeric c) :
    startsValue c = true := by
  have hSpace : c ≠ ' ' ∧ c ≠ '\n' ∧ c ≠ '\r' ∧ c ≠ '\t' := by
    refine ⟨?_, ?_, ?_, ?_⟩ <;> exact hNumeric.ne (by decide)
  have hBracket : c ≠ ']' := hNumeric.ne (by decide)
  simp [startsValue, isSpace, hSpace, hBracket]

/- A plain value starts neither with a blank nor a bracket. -/
theorem exists_write_eq_cons
    {j : Json}
    (hPlain : Plain j)
    (rest : List Char) :
    ∃ c cs, l.write level j rest = c :: cs ∧
      startsValue c = true := by
  cases hPlain with
  | null => exact ⟨_, _, rfl, rfl⟩
  | bool b =>
      cases b with
      | true => exact ⟨_, _, rfl, rfl⟩
      | false => exact ⟨_, _, rfl, rfl⟩
  | integer n =>
      rw [write]
      rcases exists_signedDigits_eq_cons n with
        ⟨c, cs, hDigits, hNumeric⟩
      rw [hDigits]
      exact ⟨c, _, rfl, startsValue_of_numeric hNumeric⟩
  | text s => exact ⟨_, _, rfl, rfl⟩
  | @array items _ =>
      cases items with
      | nil => exact ⟨_, _, rfl, rfl⟩
      | cons item items => exact ⟨_, _, rfl, rfl⟩
  | @object members _ =>
      cases members with
      | nil => exact ⟨_, _, rfl, rfl⟩
      | cons member members => exact ⟨_, _, rfl, rfl⟩

/- A number is read where its value is asked for. -/
theorem value?_signedDigits
    (n : Int)
    (hEnd : EndsNumber rest) :
    value? (fuel + 1) (signedDigits n ++ rest) =
      some (.integer n, rest) := by
  have hRead := number?_signedDigits n hEnd
  rcases exists_signedDigits_eq_cons n with
    ⟨c, cs, hDigits, hNumeric⟩
  rw [hDigits, List.cons_append] at hRead ⊢
  have hSymbol : c ≠ '\"' ∧ c ≠ '[' ∧ c ≠ '\x7b' := by
    refine ⟨?_, ?_, ?_⟩ <;> exact hNumeric.ne (by decide)
  have hLetter : c ≠ 'n' ∧ c ≠ 't' ∧ c ≠ 'f' := by
    refine ⟨?_, ?_, ?_⟩ <;> exact hNumeric.ne (by decide)
  have hSpace : isSpace c = false := by
    have hStarts := startsValue_of_numeric hNumeric
    simp only [startsValue, Bool.and_eq_true] at hStarts
    simpa using hStarts.1
  simp [value?, skipSpace_cons hSpace, name?, hSymbol, hLetter,
    hRead]

/-
  With enough fuel, the value is read back from its text.  Two
  units for each character are enough: an item takes one for
  itself and one for the list that it is in.
-/
def IsRead
    (l : Layout)
    (j : Json) : Prop :=
  ∀ {level fuel : Nat} {rest : List Char},
    EndsNumber rest →
      2 * (l.write level j rest).length + 1 ≤ fuel →
        value? fuel (l.write level j rest) = some (j, rest)

theorem writeItems_endsNumber
    (items : List Json)
    (rest : List Char) :
    EndsNumber (l.writeItems level items rest) := by
  cases items with
  | nil =>
      exact endsNumber_append (l.newLine_blank level)
        (endsNumber_cons (by decide) (by decide))
  | cons item items =>
      exact endsNumber_cons (by decide) (by decide)

theorem writeMembers_endsNumber
    (members : List (String × Json))
    (rest : List Char) :
    EndsNumber (l.writeMembers level members rest) := by
  cases members with
  | nil =>
      exact endsNumber_append (l.newLine_blank level)
        (endsNumber_cons (by decide) (by decide))
  | cons member members =>
      exact endsNumber_cons (by decide) (by decide)

------------------------------------------------------------
-- Items
------------------------------------------------------------

/- Reading goes on behind a comma. -/
theorem items?_comma
    {cs more : List Char}
    {item : Json}
    {items : List Json}
    (hItem : value? fuel cs = some (item, ',' :: more))
    (hItems : items? fuel more = some (items, rest)) :
    items? (fuel + 1) cs = some (item :: items, rest) := by
  rw [items?, hItem]
  simp [skipSpace_cons, isSpace, hItems]

/- Reading ends at a bracket. -/
theorem items?_bracket
    {cs : List Char}
    {item : Json}
    (hBlanks : IsBlankText blanks)
    (hItem :
      value? fuel cs = some (item, blanks ++ ']' :: rest)) :
    items? (fuel + 1) cs = some ([item], rest) := by
  rw [items?, hItem]
  simp [skipSpace_append hBlanks, skipSpace_cons, isSpace]

/- Items are read up to the end of their array. -/
theorem items?_write
    {items : List Json}
    (hItems : ∀ j ∈ items, l.IsRead j)
    {item : Json}
    (hItem : l.IsRead item)
    (hFuel :
      2 * (l.write (level + 1) item
        (l.writeItems level items rest)).length + 2 ≤ fuel) :
    items? fuel
        (l.write (level + 1) item
          (l.writeItems level items rest)) =
      some (item :: items, rest) := by
  induction items generalizing item fuel with
  | nil =>
      cases fuel with
      | zero => omega
      | succ fuel =>
          exact items?_bracket (l.newLine_blank level)
            (hItem (writeItems_endsNumber [] rest) (by omega))
  | cons second items ih =>
      rw [List.forall_mem_cons] at hItems
      cases fuel with
      | zero => omega
      | succ fuel =>
          have hLength := length_le_write l (level + 1) item
            (l.writeItems level (second :: items) rest)
          have hSecond :
              (l.writeItems level (second :: items) rest).length
                = (l.newLine (level + 1)).length
                  + (l.write (level + 1) second
                    (l.writeItems level items rest)).length
                  + 1 := by
            simp [writeItems]
          apply items?_comma
          · exact hItem (writeItems_endsNumber _ rest) (by omega)
          · rw [items?_append (l.newLine_blank _)]
            exact ih hItems.2 hItems.1 (by omega)

------------------------------------------------------------
-- Members
------------------------------------------------------------

/- Reading goes on behind a comma. -/
theorem members?_comma
    {key : String}
    {cs more : List Char}
    {value : Json}
    {members : List (String × Json)}
    (hValue : value? fuel cs = some (value, ',' :: more))
    (hMembers :
      members? fuel more = some (some members, rest)) :
    members? (fuel + 1) (stringOnto key (':' :: cs)) =
      some (some ((key, value) :: members), rest) := by
  have hKey :
      skipSpace (stringOnto key (':' :: cs)) =
        stringOnto key (':' :: cs) := rfl
  rw [members?, hKey, key?_stringOnto]
  simp [hValue, skipSpace_cons, isSpace, hMembers, consMember?]

/- Reading ends at a brace. -/
theorem members?_brace
    {key : String}
    {cs : List Char}
    {value : Json}
    (hBlanks : IsBlankText blanks)
    (hValue :
      value? fuel cs =
        some (value, blanks ++ '\x7d' :: rest)) :
    members? (fuel + 1) (stringOnto key (':' :: cs)) =
      some (some [(key, value)], rest) := by
  have hKey :
      skipSpace (stringOnto key (':' :: cs)) =
        stringOnto key (':' :: cs) := rfl
  rw [members?, hKey, key?_stringOnto]
  simp [hValue, skipSpace_append hBlanks, skipSpace_cons,
    isSpace, consMember?]

/- Members are read up to the end of their object. -/
theorem members?_write
    {members : List (String × Json)}
    (hMembers : ∀ member ∈ members, l.IsRead member.2)
    {key : String}
    {value : Json}
    (hValue : l.IsRead value)
    (hFuel :
      2 * (l.write (level + 1) value
        (l.writeMembers level members rest)).length + 2 ≤
          fuel) :
    members? fuel
        (stringOnto key (':' :: (l.afterColon
          ++ l.write (level + 1) value
            (l.writeMembers level members rest)))) =
      some (some ((key, value) :: members), rest) := by
  induction members generalizing key value fuel with
  | nil =>
      cases fuel with
      | zero => omega
      | succ fuel =>
          apply members?_brace (l.newLine_blank level)
          rw [value?_append l.afterColon_blank]
          exact hValue (writeMembers_endsNumber [] rest)
            (by omega)
  | cons second members ih =>
      rcases second with ⟨nextKey, next⟩
      rw [List.forall_mem_cons] at hMembers
      cases fuel with
      | zero => omega
      | succ fuel =>
          have hLength := length_le_write l (level + 1) value
            (l.writeMembers level ((nextKey, next) :: members)
              rest)
          have hKey := length_lt_stringOnto nextKey
            (':' :: (l.afterColon ++ l.write (level + 1) next
              (l.writeMembers level members rest)))
          have hNext :
              (l.writeMembers level ((nextKey, next) :: members)
                  rest).length
                = (l.newLine (level + 1)).length
                  + (stringOnto nextKey (':' :: (l.afterColon
                    ++ l.write (level + 1) next
                      (l.writeMembers level members
                        rest)))).length
                  + 1 := by
            simp [writeMembers]
          simp only [List.length_cons, List.length_append]
            at hKey
          apply members?_comma
          · rw [value?_append l.afterColon_blank]
            exact hValue (writeMembers_endsNumber _ rest)
              (by omega)
          · rw [members?_append (l.newLine_blank _)]
            exact ih hMembers.2 hMembers.1 (by omega)

------------------------------------------------------------
-- Values
------------------------------------------------------------

/- An array is read behind the blanks of its first item. -/
theorem value?_array
    {item : Json}
    {items : List Json}
    (hItem : Plain item)
    (hRead :
      items? fuel
          (l.write (level + 1) item
            (l.writeItems level items rest)) =
        some (item :: items, rest)) :
    value? (fuel + 1)
        (l.write level (.array (item :: items)) rest) =
      some (.array (item :: items), rest) := by
  rcases exists_write_eq_cons hItem
      (l.writeItems level items rest) with
    ⟨c, cs, hText, hStarts⟩
  simp only [startsValue, Bool.and_eq_true, Bool.not_eq_true',
    bne_iff_ne] at hStarts
  rw [hText] at hRead
  rw [write, value?, skipSpace_cons (by decide)]
  simp [skipSpace_append (l.newLine_blank _), hText,
    skipSpace_cons hStarts.1, hStarts.2, hRead]

/- An object is read behind the blanks of its first member. -/
theorem value?_object
    {key : String}
    {value : Json}
    {members : List (String × Json)}
    (hRead :
      members? fuel
          (stringOnto key (':' :: (l.afterColon
            ++ l.write (level + 1) value
              (l.writeMembers level members rest)))) =
        some (some ((key, value) :: members), rest)) :
    value? (fuel + 1)
        (l.write level (.object ((key, value) :: members))
          rest) =
      some (.object ((key, value) :: members), rest) := by
  rw [stringOnto] at hRead
  rw [write, value?, skipSpace_cons (by decide)]
  simp [skipSpace_append (l.newLine_blank _), stringOnto,
    skipSpace_cons, isSpace, hRead, ofMembers]

/- The first unit of fuel is spent on the value itself. -/
theorem isRead_of_succ
    {j : Json}
    (hStep :
      ∀ (level fuel : Nat) (rest : List Char),
        EndsNumber rest →
          2 * (l.write level j rest).length ≤ fuel →
            value? (fuel + 1) (l.write level j rest) =
              some (j, rest)) :
    l.IsRead j := by
  intro level fuel rest hEnd hFuel
  cases fuel with
  | zero => omega
  | succ fuel => exact hStep level fuel rest hEnd (by omega)

/- A plain value is read back from its text in any layout. -/
theorem isRead_of_plain
    {j : Json}
    (hPlain : Plain j) :
    l.IsRead j := by
  induction hPlain with
  | null =>
      apply isRead_of_succ
      intro level fuel rest hEnd hFuel
      rfl
  | bool b =>
      apply isRead_of_succ
      intro level fuel rest hEnd hFuel
      cases b <;> rfl
  | integer n =>
      apply isRead_of_succ
      intro level fuel rest hEnd hFuel
      exact value?_signedDigits n hEnd
  | text s =>
      apply isRead_of_succ
      intro level fuel rest hEnd hFuel
      exact stringValue?_stringBodyOnto s rest
  | @array items hItems ih =>
      apply isRead_of_succ
      intro level fuel rest hEnd hFuel
      cases items with
      | nil => rfl
      | cons item items =>
          rw [List.forall_mem_cons] at ih
          apply value?_array (hItems item List.mem_cons_self)
          apply items?_write ih.2 ih.1
          simp only [write, List.length_cons,
            List.length_append] at hFuel
          omega
  | @object members hMembers ih =>
      apply isRead_of_succ
      intro level fuel rest hEnd hFuel
      rcases members with _ | ⟨⟨key, value⟩, members⟩
      · rfl
      · rw [List.forall_mem_cons] at ih
        have hValue : l.IsRead value := ih.1
        apply value?_object
        apply members?_write ih.2 hValue
        have hKey := length_lt_stringOnto key
          (':' :: (l.afterColon ++ l.write (level + 1) value
            (l.writeMembers level members rest)))
        simp only [write, List.length_cons,
          List.length_append] at hKey hFuel
        omega

/- The reading of a whole text finds nothing behind it. -/
theorem ofChars?_write
    (l : Layout)
    {j : Json}
    (hPlain : Plain j) :
    ofChars? (l.write 0 j []) = some j := by
  have hRead :
      value? (2 * (l.write 0 j []).length + 1)
          (l.write 0 j []) =
        some (j, []) :=
    isRead_of_plain hPlain endsNumber_nil (Nat.le_refl _)
  rw [ofChars?, hRead]
  rfl

end Layout

/- A plain value is read back from its compact text. -/
theorem ofText?_compact
    {j : Json}
    (hPlain : Plain j) :
    ofText? j.compact = some j := by
  rw [ofText?, compact, String.toList_ofList,
    compactOnto_eq 0 j, Layout.ofChars?_write _ hPlain]

/- A plain value is read back from its indented text. -/
theorem ofText?_pretty
    {j : Json}
    (hPlain : Plain j) :
    ofText? j.pretty = some j := by
  rw [ofText?, pretty, String.toList_ofList,
    prettyOnto_eq 0 j, Layout.ofChars?_write _ hPlain]

end EventSeries.Json
