import Mathlib.Data.List.Nodup
import Mathlib.Data.List.Perm.Basic
import Mathlib.Data.List.Sort
import ContainerCP.Storage.SqliteTables
import ContainerCP.Text.Framing

/-! `StorageCanonicalizer`: a list of records as one text, in which every field
is framed and the records are sorted by their ids. -/
namespace ContainerCP.Storage

namespace Resource

variable (resource : Resource)

/-- `std::sort` by the id. -/
def sortById (records : List resource.Record) : List resource.Record :=
  records.insertionSort fun first second => resource.recordId first ≤ resource.recordId second

/-- The texts that `append_field` gets for a record. -/
def canonicalRecord (record : resource.Record) : List Bytes := resource.columns.map (·.canonical record)

/-- The `canonical_` functions. The code has none for access keys; here they have a text too,
made in the same way. -/
def canonical (records : List resource.Record) : Bytes :=
  (resource.sortById records).flatMap fun record => (resource.canonicalRecord record).flatMap frame

end Resource

/-- What a reader finds of a key of `mail_config`. -/
structure ConfigValue where
  present : Bool := false
  value : Bytes := []
  deriving DecidableEq

/-- `canonical_mail_config`. -/
def canonicalMailConfig (moduleState smarthost : ConfigValue) : Bytes :=
  [if moduleState.present then bytes "present" else bytes "absent", moduleState.value,
    if smarthost.present then bytes "present" else bytes "absent", smarthost.value].flatMap frame

section Injectivity

variable {resource : Resource} {firsts seconds : List resource.Record}

theorem length_canonicalRecord (record : resource.Record) :
    (resource.canonicalRecord record).length = resource.columns.length := List.length_map _

theorem columns_length_pos (resource : Resource) : 0 < resource.columns.length := by
  cases resource <;> exact Nat.zero_lt_succ _

/-- The texts of all fields are short enough to be framed. -/
def Resource.Framable (resource : Resource) (records : List resource.Record) : Prop :=
  ∀ record ∈ records, ∀ text ∈ resource.canonicalRecord record, ContainerCP.Framable text

theorem perm_sortById (records : List resource.Record) : (resource.sortById records).Perm records :=
  List.perm_insertionSort _ _

/-- The encoding loses nothing but the order of the records. -/
theorem perm_of_canonical_eq (hFirsts : resource.Framable firsts) (hSeconds : resource.Framable seconds)
    (h : resource.canonical firsts = resource.canonical seconds) :
    (firsts.map resource.canonicalRecord).Perm (seconds.map resource.canonicalRecord) := by
  have hFramable : ∀ records, resource.Framable records →
      ∀ text ∈ (resource.sortById records).flatMap resource.canonicalRecord, ContainerCP.Framable text := by
    intro records hRecords text hText
    obtain ⟨record, hRecord, hMem⟩ := List.mem_flatMap.mp hText
    exact hRecords record ((perm_sortById records).mem_iff.mp hRecord) text hMem
  have hTexts : (resource.sortById firsts).flatMap resource.canonicalRecord =
      (resource.sortById seconds).flatMap resource.canonicalRecord := by
    apply flatMap_frame_inj (hFramable firsts hFirsts) (hFramable seconds hSeconds)
    simpa [Resource.canonical, List.flatMap_assoc] using h
  have hSorted := map_eq_map_of_flatMap (columns_length_pos resource) length_canonicalRecord
    length_canonicalRecord hTexts
  calc firsts.map resource.canonicalRecord
      _ |>.Perm ((resource.sortById firsts).map resource.canonicalRecord) :=
        ((perm_sortById firsts).map _).symm
      _ |>.Perm (seconds.map resource.canonicalRecord) := hSorted ▸ (perm_sortById seconds).map _

theorem canonicalMailConfig_inj {moduleState moduleState' smarthost smarthost' : ConfigValue}
    (hTexts : ∀ text ∈ [moduleState.value, moduleState'.value, smarthost.value, smarthost'.value],
      ContainerCP.Framable text)
    (h : canonicalMailConfig moduleState smarthost = canonicalMailConfig moduleState' smarthost') :
    moduleState = moduleState' ∧ smarthost = smarthost' := by
  have hNe : bytes "present" ≠ bytes "absent" := by decide
  have hWord : ∀ flag : Bool, ContainerCP.Framable (if flag then bytes "present" else bytes "absent") := by
    decide
  simp only [List.forall_mem_cons] at hTexts
  have hSame := flatMap_frame_inj (by simp [hWord, hTexts]) (by simp [hWord, hTexts]) h
  obtain ⟨present, value⟩ := moduleState
  obtain ⟨present', value'⟩ := moduleState'
  obtain ⟨hostPresent, host⟩ := smarthost
  obtain ⟨hostPresent', host'⟩ := smarthost'
  cases present <;> cases present' <;> cases hostPresent <;> cases hostPresent' <;>
    simp_all [hNe.symm]

end Injectivity

/-! ## Which records have the same text -/

/-- Two records have the same value in a field. -/
def Field.Agrees {R : Type} : Field R → R → R → Prop
  | uint64 get _, first, second => get first = get second
  | uint64OrZero get _, first, second => get first = get second
  | int get _, first, second => get first = get second
  | bool get _, first, second => get first = get second
  | text get _, first, second => get first = get second
  | nullableText get _, first, second => get first = get second
  | choice _ get _, first, second => get first = get second

/-- Two records agree in every field that the canonical form lists. -/
def Resource.Agree (resource : Resource) (first second : resource.Record) : Prop :=
  ∀ field ∈ resource.columns, field.Agrees first second

/-- A record in memory: no `std::string` has 2 ^ 64 bytes. -/
structure StoredRecord (resource : Resource) where
  record : resource.Record
  framable : ∀ text ∈ resource.canonicalRecord record, ContainerCP.Framable text

theorem Field.agrees_refl {R : Type} (field : Field R) (record : R) : field.Agrees record record := by
  cases field <;> rfl

/-- The text of a field is different for different values of it. -/
theorem Field.canonical_eq_iff {R : Type} (field : Field R) (first second : R) :
    field.canonical first = field.canonical second ↔ field.Agrees first second := by
  have hNat {n m : UInt64} : decimal n.toNat = decimal m.toNat ↔ n = m := by
    rw [decimal_injective.eq_iff, UInt64.toNat_inj]
  cases field with
  | uint64 get set => exact hNat
  | uint64OrZero get set => exact hNat
  | int get set =>
      have hWide {n m : Int32} : n.toInt64.toUInt64 = m.toInt64.toUInt64 ↔ n = m := by
        constructor
        · intro h
          have hInt := congrArg (fun v : UInt64 => v.toInt64.toInt32) h
          simpa using hInt
        · rintro rfl
          rfl
      exact hNat.trans hWide
  | bool get set =>
      have hNe : bytes "true" ≠ bytes "false" := by decide
      show (if get first then bytes "true" else bytes "false") = (if get second then bytes "true" else bytes "false") ↔
        get first = get second
      cases get first <;> cases get second <;> simp [hNe, hNe.symm]
  | text get set => exact Iff.rfl
  | nullableText get set => exact Iff.rfl
  | choice valid get set => exact Iff.rfl

section Faithful

variable {resource : Resource}

theorem canonicalRecord_eq_iff (first second : resource.Record) :
    resource.canonicalRecord first = resource.canonicalRecord second ↔ resource.Agree first second := by
  rw [Resource.canonicalRecord, Resource.canonicalRecord, List.map_inj_left]
  exact forall₂_congr fun field _ => field.canonical_eq_iff first second

theorem recordId_of_agree {first second : resource.Record} (h : resource.Agree first second) :
    resource.recordId first = resource.recordId second := by
  cases resource <;> exact h _ (.head _)

/-- Records with their ids, which decide about the order. -/
def keyed (resource : Resource) (record : resource.Record) : UInt64 × List Bytes :=
  (resource.recordId record, resource.canonicalRecord record)

theorem keyed_eq_of_agree {first second : resource.Record} (h : resource.Agree first second) :
    keyed resource first = keyed resource second :=
  Prod.ext (recordId_of_agree h) ((canonicalRecord_eq_iff first second).mpr h)

/-- The order of the pairs. -/
def Before (first second : UInt64 × List Bytes) : Prop := first.1 ≤ second.1

instance : DecidableRel Before := fun first second => inferInstanceAs (Decidable (first.1 ≤ second.1))

instance : Std.Total Before := ⟨fun first second => UInt64.le_total first.1 second.1⟩

instance : IsTrans _ Before := ⟨fun _ _ _ hFirst hSecond => UInt64.le_trans hFirst hSecond⟩

/-- Only the ids and the canonical fields of the records are in the text. -/
theorem canonical_eq_keyed (records : List resource.Record) :
    resource.canonical records =
      ((records.map (keyed resource)).insertionSort Before).flatMap fun pair => pair.2.flatMap frame := by
  have hSort : (resource.sortById records).map (keyed resource) = (records.map (keyed resource)).insertionSort Before :=
    List.map_insertionSort _ _ _ _ fun _ _ _ _ => Iff.rfl
  rw [← hSort, List.flatMap_map]
  rfl

/-- Sorting forgets the order of pairs with distinct ids. -/
theorem insertionSort_eq_of_perm {firsts seconds : List (UInt64 × List Bytes)} (h : firsts.Perm seconds)
    (hDistinct : (seconds.map Prod.fst).Nodup) : firsts.insertionSort Before = seconds.insertionSort Before := by
  refine List.Perm.eq_of_pairwise ?_ (List.pairwise_insertionSort Before _) (List.pairwise_insertionSort _ _) ?_
  · intro first second hFirst hSecond hLe hGe
    have hMem : first ∈ seconds := h.mem_iff.mp ((List.mem_insertionSort _).mp hFirst)
    exact List.inj_on_of_nodup_map hDistinct hMem ((List.mem_insertionSort _).mp hSecond) (UInt64.le_antisymm hLe hGe)
  · exact (List.perm_insertionSort _ _).trans (h.trans (List.perm_insertionSort _ _).symm)

theorem canonical_singleton_eq_iff (first second : StoredRecord resource) :
    resource.canonical [first.record] = resource.canonical [second.record] ↔ resource.Agree first.record second.record := by
  rw [← canonicalRecord_eq_iff]
  have hText (record : resource.Record) : resource.canonical [record] = (resource.canonicalRecord record).flatMap frame := by
    simp [Resource.canonical, Resource.sortById]
  rw [hText, hText]
  exact ⟨flatMap_frame_inj first.framable second.framable, congrArg (List.flatMap frame)⟩

/-- The records of one list in another order, which agree with those of the other list. -/
def SameRecords (firsts seconds : List resource.Record) : Prop :=
  ∃ others, List.Forall₂ resource.Agree firsts others ∧ others.Perm seconds

theorem perm_keyed_of_sameRecords {firsts seconds : List resource.Record} (h : SameRecords firsts seconds) :
    (firsts.map (keyed resource)).Perm (seconds.map (keyed resource)) := by
  obtain ⟨others, hAgree, hPerm⟩ := h
  have hSame : List.Forall₂ (· = ·) (firsts.map (keyed resource)) (others.map (keyed resource)) := by
    rw [List.forall₂_map_left_iff, List.forall₂_map_right_iff]
    exact hAgree.imp fun _ _ => keyed_eq_of_agree
  rw [List.forall₂_eq_eq_eq] at hSame
  rw [hSame]
  exact hPerm.map _

theorem sameRecords_of_perm {firsts seconds : List resource.Record}
    (h : (firsts.map resource.canonicalRecord).Perm (seconds.map resource.canonicalRecord)) : SameRecords firsts seconds := by
  have hComp : Relation.Comp (fun texts records => texts = List.map resource.canonicalRecord records) List.Perm
      (firsts.map resource.canonicalRecord) seconds := by
    rw [List.eq_map_comp_perm]
    exact h
  obtain ⟨others, hSame, hPerm⟩ := hComp
  rw [← List.forall₂_eq_eq_eq, List.forall₂_map_left_iff, List.forall₂_map_right_iff] at hSame
  exact ⟨others, hSame.imp fun first second => (canonicalRecord_eq_iff first second).mp, hPerm⟩

/-- Lists with distinct ids have one text when they have the same records, in any order. -/
theorem canonical_eq_iff {firsts seconds : List (StoredRecord resource)}
    (hDistinct : (seconds.map fun stored => resource.recordId stored.record).Nodup) :
    resource.canonical (firsts.map (·.record)) = resource.canonical (seconds.map (·.record)) ↔
      SameRecords (firsts.map (·.record)) (seconds.map (·.record)) := by
  have hFramable (records : List (StoredRecord resource)) : resource.Framable (records.map (·.record)) := by
    intro record hRecord
    obtain ⟨stored, -, rfl⟩ := List.mem_map.mp hRecord
    exact stored.framable
  constructor
  · intro h
    exact sameRecords_of_perm (perm_of_canonical_eq (hFramable firsts) (hFramable seconds) h)
  · intro h
    rw [canonical_eq_keyed, canonical_eq_keyed]
    rw [insertionSort_eq_of_perm (perm_keyed_of_sameRecords h) (by simpa [keyed, Function.comp_def] using hDistinct)]

end Faithful

/-- The two keys of `mail_config`, as they are in memory. -/
structure StoredConfig where
  moduleState : ConfigValue
  smarthost : ConfigValue
  framable : ContainerCP.Framable moduleState.value ∧ ContainerCP.Framable smarthost.value

theorem canonicalMailConfig_eq_iff (first second : StoredConfig) :
    canonicalMailConfig first.moduleState first.smarthost = canonicalMailConfig second.moduleState second.smarthost ↔
      first.moduleState = second.moduleState ∧ first.smarthost = second.smarthost := by
  constructor
  · refine canonicalMailConfig_inj ?_
    simp [first.framable, second.framable]
  · rintro ⟨hState, hHost⟩
    rw [hState, hHost]

/-- The canonical text tells apart what the canonical form lists, and nothing else: of two records,
of two lists with distinct ids, and of the mail configuration. The texts of the three enumerations
tell their values apart. -/
theorem canonical_faithful (resource : Resource) :
    (∀ first second : StoredRecord resource,
      resource.canonical [first.record] = resource.canonical [second.record] ↔ resource.Agree first.record second.record) ∧
    (∀ firsts seconds : List (StoredRecord resource),
      (firsts.map fun stored => resource.recordId stored.record).Nodup →
        (seconds.map fun stored => resource.recordId stored.record).Nodup →
          (resource.canonical (firsts.map (·.record)) = resource.canonical (seconds.map (·.record)) ↔
            SameRecords (firsts.map (·.record)) (seconds.map (·.record)))) ∧
    (∀ first second : StoredConfig,
      canonicalMailConfig first.moduleState first.smarthost = canonicalMailConfig second.moduleState second.smarthost ↔
        first.moduleState = second.moduleState ∧ first.smarthost = second.smarthost) ∧
    (Function.Injective ProfileType.toText ∧ Function.Injective Permission.toText ∧ Function.Injective MailDomainMode.toText) :=
  ⟨canonical_singleton_eq_iff, fun _ _ _ => canonical_eq_iff, canonicalMailConfig_eq_iff,
    Function.LeftInverse.injective ProfileType.ofText_toText, Function.LeftInverse.injective Permission.ofText_toText,
    Function.LeftInverse.injective MailDomainMode.ofText_toText⟩

/-- Two nodes in both orders. -/
theorem canonical_faithful_nodes :
    Resource.nodes.canonical [{ id := 1, name := bytes "a" }, { id := 2, name := bytes "b" }] =
      Resource.nodes.canonical [{ id := 2, name := bytes "b" }, { id := 1, name := bytes "a" }] := by
  let first : StoredRecord .nodes := ⟨{ id := 1, name := bytes "a" }, by decide⟩
  let second : StoredRecord .nodes := ⟨{ id := 2, name := bytes "b" }, by decide⟩
  refine ((canonical_faithful .nodes).2.1 [first, second] [second, first] (by decide) (by decide)).mpr ?_
  exact ⟨[first.record, second.record], .cons (fun _ _ => Field.agrees_refl _ _) (.cons (fun _ _ => Field.agrees_refl _ _) .nil),
    .swap _ _ _⟩

end ContainerCP.Storage
