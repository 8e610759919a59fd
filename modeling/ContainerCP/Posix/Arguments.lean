import ContainerCP.Text.Bytes

/-! The arguments of a command, as a tool reads them: options up to a `--`, some of them with
a value behind them, and operands anywhere among them. -/
namespace ContainerCP.Posix

/-- A word of a command: one that its author wrote, or one that was given to it. -/
inductive Word where
  | fixed (text : Bytes)
  | given (text : Bytes)
  deriving DecidableEq

def Word.text : Word → Bytes
  | fixed text => text
  | given text => text

@[simp]
theorem Word.text_fixed (text : Bytes) : (Word.fixed text).text = text := rfl

@[simp]
theorem Word.text_given (text : Bytes) : (Word.given text).text = text := rfl

/-- What a tool takes a word for. -/
inductive Role where
  | option
  | value
  | separator
  | operand
  | behind
  deriving DecidableEq

def separatorText : Bytes := bytes "--"

def startsWithDash (text : Bytes) : Bool := text.head? = some (ascii '-')

/-- A tool, by the options that take a value. -/
abbrev Tool := Bytes → Bool

/-- The roles of the words, from the left. A single dash is an operand, and everything is
behind a separator. -/
def roles (takesValue : Tool) : List Bytes → List Role
  | [] => []
  | word :: rest =>
      if word = separatorText then .separator :: rest.map fun _ => .behind
      else if startsWithDash word && word ≠ [ascii '-'] then
        if takesValue word then
          match rest with
          | [] => [.option]
          | _ :: rest => .option :: .value :: roles takesValue rest
        else .option :: roles takesValue rest
      else .operand :: roles takesValue rest

/-- Each word that was given stands behind the separator, or is the value of an option, or
begins with no dash. -/
def Placed (takesValue : Tool) (words : List Word) : Prop :=
  ∀ text role, (Word.given text, role) ∈ words.zip (roles takesValue (words.map Word.text)) →
    role = .behind ∨ role = .value ∨ startsWithDash text = false

/-- No word that was given can be read as an option. -/
structure NoInjection (takesValue : Tool) (words : List Word) : Prop where
  placed : Placed takesValue words
  unread : ∀ text role, (Word.given text, role) ∈ words.zip (roles takesValue (words.map Word.text)) → role ≠ .option

variable {takesValue : Tool} {words : List Word}

/-- What is read as an option, or as the separator, begins with a dash. -/
theorem startsWithDash_of_role {word : Bytes} {words : List Bytes} {role : Role}
    (h : (word, role) ∈ words.zip (roles takesValue words)) (hRole : role = .option ∨ role = .separator) :
    startsWithDash word = true := by
  fun_induction roles takesValue words with
  | case1 => cases h
  | case2 rest =>
      rw [List.zip_cons_cons, List.mem_cons] at h
      rcases h with hHead | hRest
      · rw [(Prod.mk.inj hHead).1]
        decide
      · obtain ⟨-, hBehind⟩ := List.of_mem_zip hRest
        obtain ⟨-, -, rfl⟩ := List.mem_map.mp hBehind
        rcases hRole with hRole | hRole <;> cases hRole
  | case3 first hSeparator hDash hValue =>
      simp only [List.zip_cons_cons, List.zip_nil_left, List.mem_singleton] at h
      rw [(Prod.mk.inj h).1]
      exact (Bool.and_eq_true _ _ ▸ hDash).1
  | case4 first hSeparator hDash hValue value rest ih =>
      simp only [List.zip_cons_cons, List.mem_cons] at h
      rcases h with hHead | hHead | hRest
      · rw [(Prod.mk.inj hHead).1]
        exact (Bool.and_eq_true _ _ ▸ hDash).1
      · rw [(Prod.mk.inj hHead).2] at hRole
        rcases hRole with hRole | hRole <;> cases hRole
      · exact ih hRest
  | case5 first rest hSeparator hDash hValue ih =>
      simp only [List.zip_cons_cons, List.mem_cons] at h
      rcases h with hHead | hRest
      · rw [(Prod.mk.inj hHead).1]
        exact (Bool.and_eq_true _ _ ▸ hDash).1
      · exact ih hRest
  | case6 first rest hSeparator hDash ih =>
      simp only [List.zip_cons_cons, List.mem_cons] at h
      rcases h with hHead | hRest
      · rw [(Prod.mk.inj hHead).2] at hRole
        rcases hRole with hRole | hRole <;> cases hRole
      · exact ih hRest

theorem noInjection_iff_placed : NoInjection takesValue words ↔ Placed takesValue words := by
  refine ⟨NoInjection.placed, fun h => ⟨h, ?_⟩⟩
  rintro text role hWord rfl
  have hText : (text, Role.option) ∈ (words.map Word.text).zip (roles takesValue (words.map Word.text)) := by
    rw [List.zip_map_left]
    exact List.mem_map.mpr ⟨_, hWord, rfl⟩
  rcases h text .option hWord with hBehind | hValue | hPlain
  · cases hBehind
  · cases hValue
  · rw [startsWithDash_of_role hText (.inl rfl)] at hPlain
    cases hPlain

/-! ## Word by word -/

theorem noInjection_nil : NoInjection takesValue [] := noInjection_iff_placed.mpr fun _ _ h => absurd h List.not_mem_nil

/-- An option with its value, or a flag. -/
theorem noInjection_option {option : Bytes} (hDash : startsWithDash option = true) (hSeparator : option ≠ separatorText)
    (hLong : option ≠ [ascii '-']) (hValue : takesValue option = true) (value : Word) (rest : List Word) :
    NoInjection takesValue (.fixed option :: value :: rest) ↔ NoInjection takesValue rest := by
  have hRoles : roles takesValue (option :: value.text :: rest.map Word.text) =
      .option :: .value :: roles takesValue (rest.map Word.text) := by
    simp [roles, hDash, hSeparator, hLong, hValue]
  rw [noInjection_iff_placed, noInjection_iff_placed]
  simp only [Placed, List.map_cons, Word.text_fixed, hRoles, List.zip_cons_cons, List.mem_cons, Prod.mk.injEq]
  constructor
  · exact fun h text role hMem => h text role (.inr (.inr hMem))
  · intro h text role hMem
    rcases hMem with ⟨hWord, -⟩ | ⟨-, hRole⟩ | hRest
    · cases hWord
    · exact .inr (.inl hRole)
    · exact h text role hRest

theorem noInjection_flag {flag : Bytes} (hSeparator : flag ≠ separatorText) (hValue : takesValue flag = false) (rest : List Word) :
    NoInjection takesValue (.fixed flag :: rest) ↔ NoInjection takesValue rest := by
  obtain ⟨role, hRoles⟩ : ∃ role, roles takesValue (flag :: rest.map Word.text) = role :: roles takesValue (rest.map Word.text) := by
    rw [roles.eq_def]
    dsimp only
    rw [if_neg hSeparator]
    split
    · exact ⟨.option, by rw [hValue]; rfl⟩
    · exact ⟨.operand, rfl⟩
  rw [noInjection_iff_placed, noInjection_iff_placed]
  simp only [Placed, List.map_cons, Word.text_fixed, hRoles, List.zip_cons_cons, List.mem_cons, Prod.mk.injEq]
  constructor
  · exact fun h text role hMem => h text role (.inr hMem)
  · intro h text role hMem
    rcases hMem with ⟨hWord, -⟩ | hRest
    · cases hWord
    · exact h text role hRest

/-- Nothing is read as an option behind the separator. -/
theorem noInjection_separator (rest : List Word) : NoInjection takesValue (.fixed separatorText :: rest) := by
  rw [noInjection_iff_placed]
  intro text role hMem
  have hRoles : roles takesValue (separatorText :: rest.map Word.text) = .separator :: (rest.map Word.text).map fun _ => .behind := by
    rw [roles.eq_def]
    exact if_pos rfl
  simp only [List.map_cons, Word.text_fixed, hRoles, List.zip_cons_cons, List.mem_cons, Prod.mk.injEq] at hMem
  rcases hMem with ⟨hWord, -⟩ | hRest
  · cases hWord
  · obtain ⟨-, hBehind⟩ := List.of_mem_zip hRest
    obtain ⟨-, -, rfl⟩ := List.mem_map.mp hBehind
    exact .inl rfl

/-- A word that is given without an option in front of it must begin with no dash. -/
theorem noInjection_given (given : Bytes) (rest : List Word) :
    NoInjection takesValue (.given given :: rest) ↔ startsWithDash given = false ∧ NoInjection takesValue rest := by
  rw [noInjection_iff_placed, noInjection_iff_placed]
  cases hDash : startsWithDash given with
  | false =>
      have hNotSeparator : given ≠ separatorText := by
        rintro rfl
        revert hDash
        decide
      have hRoles : roles takesValue (given :: rest.map Word.text) = .operand :: roles takesValue (rest.map Word.text) := by
        rw [roles.eq_def]
        dsimp only
        rw [if_neg hNotSeparator, hDash, Bool.false_and, if_neg Bool.false_ne_true]
      simp only [Placed, List.map_cons, Word.text_given, hRoles, List.zip_cons_cons, List.mem_cons, Prod.mk.injEq, true_and]
      constructor
      · exact fun h text role hMem => h text role (.inr hMem)
      · intro h text role hMem
        rcases hMem with ⟨hWord, -⟩ | hRest
        · obtain rfl := Word.given.inj hWord
          exact .inr (.inr hDash)
        · exact h text role hRest
  | true =>
      refine ⟨fun h => ?_, fun h => absurd h.1 Bool.true_eq_false.mp⟩
      obtain ⟨role, others, hRoles, hBehind, hValue⟩ : ∃ role others, roles takesValue (given :: rest.map Word.text) =
          role :: others ∧ role ≠ .behind ∧ role ≠ .value := by
        rw [roles.eq_def]
        dsimp only
        split_ifs
        · exact ⟨_, _, rfl, by decide, by decide⟩
        · cases rest with
          | nil => exact ⟨_, _, rfl, by decide, by decide⟩
          | cons value rest => exact ⟨_, _, rfl, by decide, by decide⟩
        · exact ⟨_, _, rfl, by decide, by decide⟩
        · exact ⟨_, _, rfl, by decide, by decide⟩
      have hFirst := h given role (by simp only [List.map_cons, Word.text_given, hRoles, List.zip_cons_cons, List.mem_cons, true_or])
      rcases hFirst with hRole | hRole | hPlain
      · exact absurd hRole hBehind
      · exact absurd hRole hValue
      · rw [hDash] at hPlain
        cases hPlain

end ContainerCP.Posix
