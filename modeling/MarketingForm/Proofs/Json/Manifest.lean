import MarketingForm.Json.ChoiceList
import MarketingForm.Json.Manifest

/-!
# Choice lists are read back

A string is read back from its JSON text whatever its characters are, and so is a choice list from its
manifest (`readChoices_manifest`).
-/

namespace MarketingForm.Json

/-! ## Strings -/

theorem hexQuad?_hexEscape {n : Nat} (h : n < 0x20) :
    hexQuad? '0' '0' (Text.digitChar (n / 16)) (Text.digitChar (n % 16)) = some n := by
  have hall : ∀ m ∈ List.range 0x20,
      hexQuad? '0' '0' (Text.digitChar (m / 16)) (Text.digitChar (m % 16)) = some m := by decide
  exact hall n (List.mem_range.2 h)

theorem readString_plain {c : Char} (hquote : c ≠ '"') (hbackslash : c ≠ '\\')
    (hplain : ¬ c.toNat < 0x20) (acc r : List Char) :
    readString acc (c :: r) = readString (c :: acc) r := by
  rw [readString.eq_def]
  split
  all_goals rename_i heq
  · cases heq
  · exact absurd (List.cons.inj heq).1 hquote
  · exact absurd (List.cons.inj heq).1 hbackslash
  · exact absurd (List.cons.inj heq).1 hbackslash
  · exact absurd (List.cons.inj heq).1 hbackslash
  · exact absurd (List.cons.inj heq).1 hbackslash
  · obtain ⟨rfl, rfl⟩ := List.cons.inj heq
    exact if_neg hplain

/-- A written character is read as itself. -/
theorem readString_encodeChar (acc : List Char) (c : Char) (r : List Char) :
    readString acc (encodeChar c ++ r) = readString (c :: acc) r := by
  unfold encodeChar
  split
  · subst_vars; rfl
  split
  · subst_vars; rfl
  split
  · subst_vars; rfl
  split
  · subst_vars; rfl
  split
  · subst_vars; rfl
  split
  · subst_vars; rfl
  split
  · subst_vars; rfl
  split
  · rename_i hcontrol
    have hlow : isLowSurrogate c.toNat = false := by
      simp only [isLowSurrogate, Bool.and_eq_false_iff, decide_eq_false_iff_not]
      omega
    have hhigh : isHighSurrogate c.toNat = false := by
      simp only [isHighSurrogate, Bool.and_eq_false_iff, decide_eq_false_iff_not]
      omega
    simp only [hexEscape, List.cons_append, List.nil_append]
    rw [readString, hexQuad?_hexEscape hcontrol]
    simp [hlow, hhigh]
  · rename_i hquote hbackslash _ _ _ _ _ hplain
    exact readString_plain hquote hbackslash hplain acc r

theorem readString_encode (acc s r : List Char) :
    readString acc (s.flatMap encodeChar ++ '"' :: r) = .ok (acc.reverse ++ s, r) := by
  induction s generalizing acc with
  | nil =>
    rw [List.append_nil]
    rfl
  | cons c s ih =>
    rw [List.flatMap_cons, List.append_assoc, readString_encodeChar, ih, List.reverse_cons,
      List.append_assoc]
    rfl

/-- A written string is read back. -/
theorem readText_encodeString (s : String) (r : List Char) :
    readText (encodeString s.toList ++ r) = .ok (s, r) := by
  have htext : encodeString s.toList ++ r = '"' :: (s.toList.flatMap encodeChar ++ '"' :: r) := by
    simp [encodeString]
  have hskip (t : List Char) : skipBlanks ('"' :: t) = '"' :: t := rfl
  rw [htext, readText, hskip]
  simp only [readString_encode, Except.map, List.reverse_nil, List.nil_append, String.ofList_toList]

/-! ## Choices -/

/-- The rest of an object after the quote before a member's name. -/
def memberText (name value : String) (r : List Char) : List Char :=
  name.toList.flatMap encodeChar ++ '"' :: ':' :: (encodeString value.toList ++ r)

theorem readColon_text (value : String) (r : List Char) :
    (readColon (':' :: (encodeString value.toList ++ r)) >>= readText) = .ok (value, r) :=
  readText_encodeString value r

theorem readMember_value (value : String) (label : Option String) (r : List Char) :
    readMember ⟨none, label⟩ "value" (':' :: (encodeString value.toList ++ r)) =
      .ok (⟨some value, label⟩, r) := by
  rw [readMember, if_pos rfl, readColon_text]
  rfl

theorem readMember_label (value : Option String) (label : String) (r : List Char) :
    readMember ⟨value, none⟩ "label" (':' :: (encodeString label.toList ++ r)) =
      .ok (⟨value, some label⟩, r) := by
  rw [readMember, if_neg (by decide), if_pos rfl, readColon_text]
  rfl

/-- A written member is read, and then the members after it. -/
theorem readMembers_step {m m' : Members} {first : Bool} {name value : String} {s r : List Char}
    (hnext : nextMember first s = .ok (some (memberText name value r)))
    (hread : readMember m name (':' :: (encodeString value.toList ++ r)) = .ok (m', r))
    (fuel : Nat) : readMembers m first s (fuel + 1) = readMembers m' false r fuel := by
  rw [readMembers, hnext]
  simp only [memberText, readString_encode, List.reverse_nil, List.nil_append,
    String.ofList_toList, bind, Except.bind, hread]

/-- A written choice is read back. -/
theorem readChoice_json (c : Choice) (r : List Char) : readChoice (c.json ++ r) = .ok (c, r) := by
  let last := memberText "label" c.label ('\x7d' :: r)
  let members := '"' :: memberText "value" c.value (',' :: '"' :: last)
  have htext : c.json ++ r = '\x7b' :: members := by
    simp [members, last, Choice.json, memberText, encodeString]
  have hfuel : ∃ n, members.length + 1 = n + 3 := by
    refine Nat.exists_eq_add_of_le' ?_
    simp only [members, memberText, List.length_cons, List.length_append]
    omega
  obtain ⟨fuel, hfuel⟩ := hfuel
  have hread : readChoice ('\x7b' :: members) =
      readMembers ⟨none, none⟩ true members (members.length + 1) := rfl
  have hvalue : nextMember true members =
      .ok (some (memberText "value" c.value (',' :: '"' :: last))) := rfl
  have hlabel : nextMember false (',' :: '"' :: last) = .ok (some last) := rfl
  rw [htext, hread, hfuel, readMembers_step hvalue (readMember_value c.value none _),
    readMembers_step hlabel (readMember_label _ c.label _)]
  rfl

/-! ## Lists -/

/-- The elements of a list behind the first one. -/
def moreText (cs : List Choice) (r : List Char) : List Char :=
  (cs.flatMap fun c => ',' :: c.json) ++ ']' :: r

theorem commaSeparated_cons (x : List Char) (xs : List (List Char)) :
    commaSeparated (x :: xs) = x ++ xs.flatMap fun y => ',' :: y := by
  induction xs generalizing x with
  | nil => exact (List.append_nil x).symm
  | cons y xs ih =>
    rw [commaSeparated, ih]
    rfl

theorem readElements_more (cs : List Choice) (r : List Char) {fuel : Nat} (h : cs.length < fuel) :
    readElements false (moreText cs r) fuel = .ok (cs, r) := by
  induction cs generalizing fuel with
  | nil =>
    obtain ⟨fuel, rfl⟩ := Nat.exists_eq_add_of_le' h
    rfl
  | cons c cs ih =>
    obtain ⟨fuel, rfl⟩ := Nat.exists_eq_add_of_le' h
    have hnext : nextElement false (moreText (c :: cs) r) = .ok (some (c.json ++ moreText cs r)) := by
      simp [nextElement, moreText, Choice.json, skipBlanks]
    rw [List.length_cons, Nat.add_succ, readElements, hnext]
    simp only [readChoice_json, bind, Except.bind]
    rw [ih (by omega)]

theorem length_lt_moreText (cs : List Choice) (r : List Char) : cs.length < (moreText cs r).length := by
  induction cs with
  | nil => exact Nat.succ_pos _
  | cons c cs ih =>
    have htext : moreText (c :: cs) r = ',' :: (c.json ++ moreText cs r) := by simp [moreText]
    rw [htext, List.length_cons, List.length_cons, List.length_append]
    omega

/-- A choice list is read back from its manifest. -/
theorem readChoices_manifest (cs : List Choice) :
    readChoices (Choice.manifest cs).toList = .ok cs := by
  rw [Choice.manifest, String.toList_ofList]
  cases cs with
  | nil => rfl
  | cons c cs =>
    have htext : '[' :: commaSeparated ((c :: cs).map Choice.json) ++ [']'] =
        '[' :: (c.json ++ moreText cs []) := by
      rw [List.map_cons, commaSeparated_cons, moreText, List.flatMap_map, List.cons_append,
        List.append_assoc]
    have hnext : nextElement true (c.json ++ moreText cs []) = .ok (some (c.json ++ moreText cs [])) :=
      rfl
    have hlength : cs.length < (c.json ++ moreText cs []).length := by
      rw [List.length_append]
      exact Nat.lt_add_left _ (length_lt_moreText cs [])
    have hread : readElements true (c.json ++ moreText cs []) ((c.json ++ moreText cs []).length + 1) =
        .ok (c :: cs, []) := by
      rw [readElements, hnext]
      simp only [readChoice_json, bind, Except.bind]
      rw [readElements_more cs [] hlength]
    rw [htext, readChoices]
    simp only [skipBlanks, Char.reduceEq, or_self, ↓reduceIte, hread, bind, Except.bind]

end MarketingForm.Json
