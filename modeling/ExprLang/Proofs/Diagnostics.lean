import ExprLang.Proofs.Quotation
import ExprLang.Report

/-!
# Unambiguous diagnostics

A message tells which error it is of.  Names stand in it as they are and may imitate the text around
them, so it cannot be read from left to right throughout: a name is what is left when the fixed text
before it and all that follows it have been recognised.

* `Ty.ofInitial` — a value's type, from the first character of its text.
* `RunError.opening`, `TypingError.opening` — the first ten characters of a message, which show
  its kind.
* `RunError.channelText` — the message of a fault of the streams, from its cause.

Principal results: `Value.text_injective`, `RunError.message_injective`,
`TypingError.message_injective`; `diagnostics_unambiguous` — all of them, for any cause of a fault.
-/

set_option autoImplicit false

namespace ExprLang

/-! ## Values -/

def Ty.ofInitial : Option Char → Ty
  | some '\x22' => .string
  | some '(' => .unit
  | some 't' | some 'f' => .bool
  | _ => .int

/-- A number starts with a minus sign or a digit. -/
theorem Decimal.ofInitial_ofInt (i : Int) : Ty.ofInitial (ofInt i).toList.head? = .int := by
  unfold ofInt
  split
  · rw [String.toList_append]
    rfl
  · obtain ⟨c, cs, hcs⟩ := List.exists_cons_of_ne_nil (toList_ofNat_ne_nil i.natAbs)
    have hc : c.isDigit = true := isDigit_of_mem_ofNat (n := i.natAbs) (by simp [hcs])
    rw [hcs, List.head?_cons, Ty.ofInitial]
    all_goals rintro ⟨rfl⟩; exact absurd hc (by decide)

theorem Value.ofInitial_text (v : Value) : Ty.ofInitial v.text.toList.head? = v.type := by
  cases v with
  | int n => exact Decimal.ofInitial_ofInt n.toInt
  | bool b => cases b <;> rfl
  | string s =>
    show Ty.ofInitial (String.ofList (Quoted.quoteChars s.toList)).toList.head? = _
    rw [String.toList_ofList]
    rfl
  | unit => rfl

/-- **The text of a value shows which value it is.** -/
theorem Value.text_injective {v w : Value} (h : v.text = w.text) : v = w := by
  have htype : v.type = w.type := by rw [← v.ofInitial_text, h, w.ofInitial_text]
  cases v with
  | int m =>
    cases w with
    | int n => exact congrArg int (Int32.toInt_inj.mp (Decimal.ofInt_injective h))
    | _ => cases htype
  | bool a =>
    cases w with
    | bool b => cases a <;> cases b <;> first | rfl | exact absurd h (by decide)
    | _ => cases htype
  | string s =>
    cases w with
    | string t => exact congrArg string (Quoted.quote_injective h)
    | _ => cases htype
  | unit =>
    cases w with
    | unit => rfl
    | _ => cases htype

/-! ## Parts of messages -/

theorem Ty.space_notMem_text (t : Ty) : ' ' ∉ t.text.toList := by
  cases t <;> decide

theorem Ty.quote_notMem_text (t : Ty) : '\'' ∉ t.text.toList := by
  cases t <;> decide

theorem Decimal.space_notMem_ofNat (n : Nat) : ' ' ∉ (ofNat n).toList := fun h =>
  absurd (isDigit_of_mem_ofNat h) (by decide)

/-- Neither number holds a space, so they are found from the end of the text, and the name is what
is left. -/
theorem arityText_injective {f g : Name} {m n i j : Nat} (h : arityText f m i = arityText g n j) :
    f = g ∧ m = n ∧ i = j := by
  obtain ⟨h, hactual⟩ := text_inj_right (z := ' ') (by decide) (Decimal.space_notMem_ofNat i)
    (Decimal.space_notMem_ofNat j) h
  obtain ⟨h, hexpected⟩ := text_inj_right (z := ' ') (by decide) (Decimal.space_notMem_ofNat m)
    (Decimal.space_notMem_ofNat n) h
  exact ⟨(String.append_right_inj _).mp h, Decimal.ofNat_injective hexpected,
    Decimal.ofNat_injective hactual⟩

/-- Between fixed texts a name may be anything. -/
theorem enclosed_inj {lead tail x y : String} (h : lead ++ x ++ tail = lead ++ y ++ tail) : x = y :=
  (String.append_right_inj _).mp ((String.append_left_inj _).mp h)

theorem ChannelFault.message_injective {fault fault' : ChannelFault}
    (h : fault.message = fault'.message) : fault = fault' := by
  cases fault <;> cases fault' <;> first | rfl | exact absurd h (by decide)

theorem prefix_append {cs : List Char} {s : String} (h : cs <+: s.toList) (t : String) :
    cs <+: (s ++ t).toList := by
  rw [String.toList_append]
  exact h.trans (List.prefix_append _ _)

theorem prefix_arityText (f : Name) (m n : Nat) :
    "Function '".toList <+: (arityText f m n).toList := by
  have hname := prefix_append (List.prefix_refl "Function '".toList) f
  have hexpects := prefix_append hname "' expects "
  have hexpected := prefix_append hexpects (Decimal.ofNat m)
  have hgiven := prefix_append hexpected " arguments but was given "
  exact prefix_append hgiven (Decimal.ofNat n)

/-- A text has one beginning of each length. -/
theorem eq_of_prefix {a b s : String} (ha : a.toList <+: s.toList) (hb : b.toList <+: s.toList)
    (hlength : a.toList.length = b.toList.length) : a = b := by
  have hbegins := List.prefix_of_prefix_length_le ha hb (Nat.le_of_eq hlength)
  exact String.toList_inj.mp (hbegins.eq_of_length hlength)

/-! ## Run-time errors -/

namespace RunError

variable {e e' : RunError}

def opening : RunError → String
  | .typeError _ _ => "Runtime ty"
  | .divisionByZero => "Division b"
  | .moduloByZero => "Modulo by "
  | .unboundName _ => "Could not "
  | .undefinedFunction _ => "Function n"
  | .arityMismatch _ _ _ => "Function '"
  | .castFailure _ _ => "Invalid ca"
  | .endOfInput => "Reached en"
  | .channel _ => "I/O error "

theorem length_opening (e : RunError) : e.opening.toList.length = 10 := by
  cases e <;> simp only [opening] <;> decide

def channelText (cause : String) : String := "I/O error on standard streams: " ++ cause

theorem opening_prefix_channelText (cause : String) :
    "I/O error ".toList <+: (channelText cause).toList := by
  have h : "I/O error ".toList <+: "I/O error on standard streams: ".toList := by decide
  exact prefix_append h cause

theorem opening_prefix (e : RunError) : e.opening.toList <+: e.message.toList := by
  cases e with
  | divisionByZero | moduloByZero | endOfInput => decide
  | typeError expected found =>
    have h : "Runtime ty".toList <+: "Runtime type error: expected a value of type ".toList := by
      decide
    exact prefix_append (prefix_append (prefix_append h _) _) _
  | unboundName x =>
    have h : "Could not ".toList <+: "Could not find unbound variable ".toList := by decide
    exact prefix_append h x
  | undefinedFunction f =>
    have h : "Function n".toList <+: "Function not defined: ".toList := by decide
    exact prefix_append h f
  | arityMismatch f expected actual => exact prefix_arityText f expected actual
  | castFailure v target =>
    have h : "Invalid ca".toList <+: "Invalid cast of ".toList := by decide
    exact prefix_append (prefix_append (prefix_append h _) _) _
  | channel fault => exact opening_prefix_channelText fault.message

theorem opening_eq (h : e.message = e'.message) : e.opening = e'.opening := by
  have hbegins := e.opening_prefix
  rw [h] at hbegins
  exact eq_of_prefix hbegins e'.opening_prefix (by rw [length_opening, length_opening])

/-- The expected type has no space, so the first one ends it. -/
theorem typeError_inj {t u : Ty} {v w : Value}
    (h : (typeError t v).message = (typeError u w).message) : t = u ∧ v = w := by
  obtain ⟨ht, hv⟩ :=
    text_inj_left (z := ' ') (by decide) t.space_notMem_text u.space_notMem_text h
  exact ⟨Ty.text_injective ht, Value.text_injective hv⟩

/-- The value may have spaces; the target has none, so the last one begins it. -/
theorem castFailure_inj {v w : Value} {t u : Ty}
    (h : (castFailure v t).message = (castFailure w u).message) : v = w ∧ t = u := by
  obtain ⟨hv, ht⟩ :=
    text_inj_right (z := ' ') (by decide) t.space_notMem_text u.space_notMem_text h
  exact ⟨Value.text_injective ((String.append_right_inj _).mp hv), Ty.text_injective ht⟩

/-- **The message of a run-time error shows which error it is.** -/
theorem message_injective (h : e.message = e'.message) : e = e' := by
  have hopening := opening_eq h
  cases e with
  | typeError t v =>
    cases e' with
    | typeError u w =>
      obtain ⟨rfl, rfl⟩ := typeError_inj h
      rfl
    | _ => simp [opening] at hopening
  | divisionByZero =>
    cases e' with
    | divisionByZero => rfl
    | _ => simp [opening] at hopening
  | moduloByZero =>
    cases e' with
    | moduloByZero => rfl
    | _ => simp [opening] at hopening
  | unboundName x =>
    cases e' with
    | unboundName y => rw [(String.append_right_inj _).mp h]
    | _ => simp [opening] at hopening
  | undefinedFunction f =>
    cases e' with
    | undefinedFunction g => rw [(String.append_right_inj _).mp h]
    | _ => simp [opening] at hopening
  | arityMismatch f m i =>
    cases e' with
    | arityMismatch g n j =>
      obtain ⟨rfl, rfl, rfl⟩ := arityText_injective h
      rfl
    | _ => simp [opening] at hopening
  | castFailure v t =>
    cases e' with
    | castFailure w u =>
      obtain ⟨rfl, rfl⟩ := castFailure_inj h
      rfl
    | _ => simp [opening] at hopening
  | endOfInput =>
    cases e' with
    | endOfInput => rfl
    | _ => simp [opening] at hopening
  | channel fault =>
    cases e' with
    | channel fault' =>
      rw [ChannelFault.message_injective ((String.append_right_inj _).mp h)]
    | _ => simp [opening] at hopening

/-- No cause, whatever its text, makes the message of a fault look like that of another error. -/
theorem eq_channel_of_message {cause : String} (h : e.message = channelText cause) :
    ∃ fault, e = .channel fault ∧ fault.message = cause := by
  have hbegins := e.opening_prefix
  rw [h] at hbegins
  have hopening : e.opening = "I/O error " :=
    eq_of_prefix hbegins (opening_prefix_channelText cause) (by rw [length_opening]; decide)
  cases e with
  | channel fault => exact ⟨fault, rfl, (String.append_right_inj _).mp h⟩
  | _ => simp [opening] at hopening

end RunError

/-! ## Typing errors -/

namespace TypingError

variable {e e' : TypingError}

def opening : TypingError → String
  | .typeMismatch _ _ => "Couldn't m"
  | .unboundName _ => "Variable '"
  | .undefinedFunction _ => "Call to un"
  | .arityMismatch _ _ _ => "Function '"
  | .multipleDefinitions _ => "Found mult"

theorem length_opening (e : TypingError) : e.opening.toList.length = 10 := by
  cases e <;> simp only [opening] <;> decide

theorem opening_prefix (e : TypingError) : e.opening.toList <+: e.message.toList := by
  cases e with
  | typeMismatch expected actual =>
    have h : "Couldn't m".toList <+: "Couldn't match expected type '".toList := by decide
    exact prefix_append (prefix_append (prefix_append (prefix_append h _) _) _) _
  | unboundName x =>
    have h : "Variable '".toList <+: ("Variable '" ++ x).toList :=
      prefix_append (List.prefix_refl _) x
    exact prefix_append h _
  | undefinedFunction f =>
    have h : "Call to un".toList <+: "Call to undefined function '".toList := by decide
    exact prefix_append (prefix_append h _) _
  | arityMismatch f expected actual => exact prefix_arityText f expected actual
  | multipleDefinitions f =>
    have h : "Found mult".toList <+: "Found multiple definitions of '".toList := by decide
    exact prefix_append (prefix_append h _) _

theorem opening_eq (h : e.message = e'.message) : e.opening = e'.opening := by
  have hbegins := e.opening_prefix
  rw [h] at hbegins
  exact eq_of_prefix hbegins e'.opening_prefix (by rw [length_opening, length_opening])

/-- No type has a quote. -/
theorem typeMismatch_inj {t u t' u' : Ty}
    (h : (typeMismatch t u).message = (typeMismatch t' u').message) : t = t' ∧ u = u' := by
  obtain ⟨ht, hu⟩ := text_inj_left (z := '\'') (by decide) t.quote_notMem_text
    t'.quote_notMem_text ((String.append_left_inj _).mp h)
  exact ⟨Ty.text_injective ht, Ty.text_injective hu⟩

/-- **The message of a typing error shows which error it is.** -/
theorem message_injective (h : e.message = e'.message) : e = e' := by
  have hopening := opening_eq h
  cases e with
  | typeMismatch t u =>
    cases e' with
    | typeMismatch t' u' =>
      obtain ⟨rfl, rfl⟩ := typeMismatch_inj h
      rfl
    | _ => simp [opening] at hopening
  | unboundName x =>
    cases e' with
    | unboundName y => rw [enclosed_inj h]
    | _ => simp [opening] at hopening
  | undefinedFunction f =>
    cases e' with
    | undefinedFunction g => rw [enclosed_inj h]
    | _ => simp [opening] at hopening
  | arityMismatch f m i =>
    cases e' with
    | arityMismatch g n j =>
      obtain ⟨rfl, rfl, rfl⟩ := arityText_injective h
      rfl
    | _ => simp [opening] at hopening
  | multipleDefinitions f =>
    cases e' with
    | multipleDefinitions g => rw [enclosed_inj h]
    | _ => simp [opening] at hopening

end TypingError

/-! ## Main theorem -/

/-- **Diagnostics are unambiguous.**  Different values have different texts, and different errors,
of a run or of a check, different messages.  Faults of the streams are told apart by their cause,
and whatever the cause, their message is that of no other error. -/
theorem diagnostics_unambiguous :
    (∀ v w : Value, v.text = w.text ↔ v = w) ∧
    (∀ e e' : RunError, e.message = e'.message ↔ e = e') ∧
    (∀ (e : RunError) (cause : String), e.message = RunError.channelText cause ↔
      ∃ fault, e = .channel fault ∧ fault.message = cause) ∧
    (∀ cause cause' : String,
      RunError.channelText cause = RunError.channelText cause' ↔ cause = cause') ∧
    ∀ e e' : TypingError, e.message = e'.message ↔ e = e' := by
  refine ⟨fun v w => ⟨Value.text_injective, congrArg _⟩,
    fun e e' => ⟨RunError.message_injective, congrArg _⟩,
    fun e cause => ⟨RunError.eq_channel_of_message, ?_⟩,
    fun cause cause' => String.append_right_inj _,
    fun e e' => ⟨TypingError.message_injective, congrArg _⟩⟩
  rintro ⟨fault, rfl, rfl⟩
  rfl

/-- A function whose name goes on like the message about another one. -/
def imitatingName : Name := "f' expects 1 arguments but was given 2"

theorem diagnostics_unambiguous_imitating :
    (RunError.arityMismatch "f" 1 2).message.toList <+:
      (RunError.arityMismatch imitatingName 3 4).message.toList ∧
    (RunError.arityMismatch "f" 1 2).message ≠
      (RunError.arityMismatch imitatingName 3 4).message := by
  obtain ⟨-, hrun, -⟩ := diagnostics_unambiguous
  exact ⟨by decide, fun h => absurd ((hrun _ _).mp h) (by decide)⟩

end ExprLang
