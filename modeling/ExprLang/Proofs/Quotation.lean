import ExprLang.Text.Decimal
import ExprLang.Text.Quoted

/-!
# Texts that can be read in one way

Quoted texts and numbers are told apart by how they are written, and so are texts on the two sides of
a separator, wherever one of the sides cannot hold it.

* `Quoted.Form` — the ways in which a character is written between quotes.

Principal results: `text_inj_left`, `text_inj_right` — the sides of a separator;
`Decimal.ofNat_injective`, `Decimal.ofInt_injective` — numbers; `Quoted.Form.append_inj` — no written
form of a character begins another one, whichever characters are escaped; `Quoted.quote_injective`.
-/

set_option autoImplicit false

namespace ExprLang

/-! ## Separators -/

section Separators

variable {z : Char} {a b x y : List Char}

theorem takeWhile_of_separator (ha : z ∉ a) (x : List Char) :
    (a ++ z :: x).takeWhile (· != z) = a := by
  have hpass : ∀ c ∈ a, (c != z) = true := fun c hc => by simpa using ne_of_mem_of_not_mem hc ha
  rw [List.takeWhile_append_of_pos hpass, List.takeWhile_cons_of_neg (by simp), List.append_nil]

/-- Neither left side holds the separator. -/
theorem append_cons_inj_left (ha : z ∉ a) (hb : z ∉ b) (h : a ++ z :: x = b ++ z :: y) :
    a = b ∧ x = y := by
  have hab : a = b := by rw [← takeWhile_of_separator ha x, h, takeWhile_of_separator hb y]
  subst hab
  exact ⟨rfl, List.tail_eq_of_cons_eq (List.append_cancel_left h)⟩

/-- Neither right side holds the separator. -/
theorem append_cons_inj_right (hx : z ∉ x) (hy : z ∉ y) (h : a ++ z :: x = b ++ z :: y) :
    a = b ∧ x = y := by
  have hrev : x.reverse ++ z :: a.reverse = y.reverse ++ z :: b.reverse := by
    simpa using congrArg List.reverse h
  obtain ⟨hxy, hab⟩ := append_cons_inj_left (by simpa using hx) (by simpa using hy) hrev
  exact ⟨List.reverse_inj.mp hab, List.reverse_inj.mp hxy⟩

variable {lead mark s s' t t' : String}

/-- A text ends where a mark begins whose first character it does not hold. -/
theorem text_inj_left (hmark : mark.toList.head? = some z) (hs : z ∉ s.toList)
    (hs' : z ∉ s'.toList) (h : lead ++ s ++ mark ++ t = lead ++ s' ++ mark ++ t') :
    s = s' ∧ t = t' := by
  obtain ⟨cs, hcs⟩ := List.head?_eq_some_iff.mp hmark
  have hchars : s.toList ++ z :: (cs ++ t.toList) = s'.toList ++ z :: (cs ++ t'.toList) := by
    simpa [hcs] using congrArg String.toList h
  obtain ⟨hleft, hright⟩ := append_cons_inj_left hs hs' hchars
  exact ⟨String.toList_inj.mp hleft, String.toList_inj.mp (List.append_cancel_left hright)⟩

/-- A text begins where a mark ends whose last character it does not hold. -/
theorem text_inj_right (hmark : mark.toList.getLast? = some z) (ht : z ∉ t.toList)
    (ht' : z ∉ t'.toList) (h : s ++ mark ++ t = s' ++ mark ++ t') : s = s' ∧ t = t' := by
  obtain ⟨cs, hcs⟩ := List.getLast?_eq_some_iff.mp hmark
  have hchars : (s.toList ++ cs) ++ z :: t.toList = (s'.toList ++ cs) ++ z :: t'.toList := by
    simpa [hcs] using congrArg String.toList h
  obtain ⟨hleft, hright⟩ := append_cons_inj_right ht ht' hchars
  exact ⟨String.toList_inj.mp (List.append_cancel_right hleft), String.toList_inj.mp hright⟩

end Separators

/-! ## Digits -/

section Digits

variable {base m n : Nat}

theorem mem_toDigits (hbase : 1 < base) {c : Char} (h : c ∈ Nat.toDigits base n) :
    ∃ d < base, c = d.digitChar := by
  induction n using Nat.strongRecOn with
  | ind n ih =>
    rw [Nat.toDigits_eq_if hbase] at h
    split at h
    · rename_i hn
      exact ⟨n, hn, List.mem_singleton.mp h⟩
    · rcases List.mem_append.mp h with h | h
      · exact ih (n / base) (Nat.div_lt_self (by omega) hbase) h
      · exact ⟨n % base, Nat.mod_lt n (by omega), List.mem_singleton.mp h⟩

theorem digitChar_inj (hm : m < 16) (hn : n < 16) (h : m.digitChar = n.digitChar) : m = n := by
  have hall : ∀ m < 16, ∀ n < 16, Nat.digitChar m = Nat.digitChar n → m = n := by decide
  exact hall m hm n hn h

/-- The last digit gives the remainder, the ones before it the quotient. -/
theorem toDigits_inj (hbase : 1 < base) (hbase' : base ≤ 16)
    (h : Nat.toDigits base m = Nat.toDigits base n) : m = n := by
  induction m using Nat.strongRecOn generalizing n with
  | ind m ih =>
    rw [Nat.toDigits_eq_if (n := m) hbase, Nat.toDigits_eq_if (n := n) hbase] at h
    by_cases hm : m < base <;> by_cases hn : n < base
    · rw [if_pos hm, if_pos hn] at h
      exact digitChar_inj (by omega) (by omega) (List.singleton_inj.mp h)
    · rw [if_pos hm, if_neg hn] at h
      exact absurd (List.append_eq_singleton_iff.mp h.symm) (by simp [Nat.toDigits_ne_nil])
    · rw [if_neg hm, if_pos hn] at h
      exact absurd (List.append_eq_singleton_iff.mp h) (by simp [Nat.toDigits_ne_nil])
    · rw [if_neg hm, if_neg hn] at h
      obtain ⟨hinit, hlast⟩ := List.append_inj' h rfl
      have hquot : m / base = n / base := ih _ (Nat.div_lt_self (by omega) hbase) hinit
      have hm' : m % base < base := Nat.mod_lt m (by omega)
      have hn' : n % base < base := Nat.mod_lt n (by omega)
      have hrem : m % base = n % base :=
        digitChar_inj (by omega) (by omega) (List.singleton_inj.mp hlast)
      rw [← Nat.div_add_mod m base, hquot, hrem, Nat.div_add_mod]

end Digits

namespace Decimal

theorem ofNat_injective {m n : Nat} (h : ofNat m = ofNat n) : m = n :=
  toDigits_inj (by decide) (by decide) (String.ofList_inj.mp h)

theorem ofInt_injective {i j : Int} (h : ofInt i = ofInt j) : i = j := by
  have hi := read?_ofInt i
  rw [h, read?_ofInt] at hi
  exact (Option.some.inj hi).symm

theorem isDigit_of_mem_ofNat {n : Nat} {c : Char} (h : c ∈ (ofNat n).toList) : c.isDigit = true := by
  rw [ofNat, String.toList_ofList] at h
  exact Nat.isDigit_of_mem_toDigits (by decide) (by decide) h

theorem toList_ofNat_ne_nil (n : Nat) : (ofNat n).toList ≠ [] := by
  rw [ofNat, String.toList_ofList]
  exact Nat.toDigits_ne_nil

end Decimal

/-! ## Quotes -/

namespace Quoted

/-- The characters with a letter of their own behind the backslash. -/
def letters : List (Char × Char) :=
  [('\x00', '0'), ('\t', 't'), ('\n', 'n'), ('\r', 'r'), ('\x22', '\x22'), ('\\', '\\')]

theorem letters_inj {c d l : Char} (hc : (c, l) ∈ letters) (hd : (d, l) ∈ letters) : c = d := by
  have hall : ∀ p ∈ letters, ∀ q ∈ letters, p.2 = q.2 → p.1 = q.1 := by decide
  exact hall (c, l) hc (d, l) hd rfl

theorem ne_u_of_mem_letters {c l : Char} (h : (c, l) ∈ letters) : l ≠ 'u' := by
  have hall : ∀ p ∈ letters, p.2 ≠ 'u' := by decide
  exact hall (c, l) h

/-- A written form of the character `c`. -/
inductive Form (c : Char) : List Char → Prop
  | letter {l : Char} : (c, l) ∈ letters → Form c ['\\', l]
  | codePoint : Form c (codePoint c)
  | plain : c ≠ '\\' → Form c [c]

theorem form_escape (c : Char) : Form c (escape c) := by
  unfold escape
  split
  case h_7 c _ _ _ _ _ hbackslash =>
    split
    · exact .codePoint
    · exact .plain hbackslash
  all_goals exact .letter (by decide)

theorem codePoint_append_inj {c d : Char} {x y : List Char}
    (h : codePoint c ++ x = codePoint d ++ y) : c = d ∧ x = y := by
  have hbrace : ∀ c : Char, '\x7d' ∉ Nat.toDigits 16 c.toNat := by
    intro c hmem
    obtain ⟨n, hn, heq⟩ := mem_toDigits (by decide) hmem
    have hall : ∀ n < 16, '\x7d' ≠ Nat.digitChar n := by decide
    exact hall n hn heq
  simp only [codePoint, List.append_assoc, List.singleton_append] at h
  obtain ⟨hdigits, rfl⟩ := append_cons_inj_left (hbrace c) (hbrace d) (List.append_cancel_left h)
  exact ⟨Char.toNat_inj.mp (toDigits_inj (by decide) (by decide) hdigits), rfl⟩

/-- **No form of a character begins a form of another one.** -/
theorem Form.append_inj {c d : Char} {s t x y : List Char} (hs : Form c s) (ht : Form d t)
    (h : s ++ x = t ++ y) : c = d ∧ x = y := by
  cases hs with
  | letter hl =>
    cases ht with
    | letter hm =>
      obtain ⟨rfl, rfl⟩ := List.cons.inj (List.tail_eq_of_cons_eq h)
      exact ⟨letters_inj hl hm, rfl⟩
    | codePoint =>
      exact absurd (List.head_eq_of_cons_eq (List.tail_eq_of_cons_eq h)) (ne_u_of_mem_letters hl)
    | plain hd => exact absurd (List.head_eq_of_cons_eq h).symm hd
  | codePoint =>
    cases ht with
    | letter hm =>
      exact absurd (List.head_eq_of_cons_eq (List.tail_eq_of_cons_eq h)).symm
        (ne_u_of_mem_letters hm)
    | codePoint => exact codePoint_append_inj h
    | plain hd => exact absurd (List.head_eq_of_cons_eq h).symm hd
  | plain hc =>
    cases ht with
    | letter _ => exact absurd (List.head_eq_of_cons_eq h) hc
    | codePoint => exact absurd (List.head_eq_of_cons_eq h) hc
    | plain _ => exact List.cons.inj h

theorem Form.ne_nil {c : Char} {s : List Char} (h : Form c s) : s ≠ [] := by
  cases h <;> simp [Quoted.codePoint]

/-- Whichever form each character is written in, the text can be read in one way. -/
theorem flatMap_injective {written : Char → List Char} (hwritten : ∀ c, Form c (written c))
    {cs ds : List Char} (h : cs.flatMap written = ds.flatMap written) : cs = ds := by
  induction cs generalizing ds with
  | nil =>
    cases ds with
    | nil => rfl
    | cons d ds =>
      rw [List.flatMap_nil, List.flatMap_cons] at h
      exact absurd (List.append_eq_nil_iff.mp h.symm).1 (hwritten d).ne_nil
  | cons c cs ih =>
    cases ds with
    | nil =>
      rw [List.flatMap_nil, List.flatMap_cons] at h
      exact absurd (List.append_eq_nil_iff.mp h).1 (hwritten c).ne_nil
    | cons d ds =>
      rw [List.flatMap_cons, List.flatMap_cons] at h
      obtain ⟨rfl, hrest⟩ := (hwritten c).append_inj (hwritten d) h
      rw [ih hrest]

/-- **A quoted text shows which text it is of.** -/
theorem quote_injective {s t : String} (h : quote s = quote t) : s = t := by
  have hquoted : quoteChars s.toList = quoteChars t.toList := String.ofList_inj.mp h
  have hinner : s.toList.flatMap escape = t.toList.flatMap escape :=
    List.append_cancel_right (List.tail_eq_of_cons_eq hquoted)
  exact String.toList_inj.mp (flatMap_injective form_escape hinner)

end Quoted

end ExprLang
