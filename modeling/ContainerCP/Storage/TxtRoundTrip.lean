import ContainerCP.Storage.TxtStorage

/-! What the text backend gives back of what it saved. -/
namespace ContainerCP.Storage

/-- Neither a bar nor a line break. -/
def Clean (text : Bytes) : Prop := pipe ∉ text ∧ newline ∉ text

instance (text : Bytes) : Decidable (Clean text) := inferInstanceAs (Decidable (_ ∧ _))

section Fields

variable {R : Type}

/-- The texts of the field are clean. -/
def Field.TextClean : Field R → R → Prop
  | .text get _, r => Clean (get r)
  | .nullableText get _, r => Clean (get r)
  | _, _ => True

instance (field : Field R) (r : R) : Decidable (field.TextClean r) :=
  match field with
  | .text get _ => inferInstanceAs (Decidable (Clean (get r)))
  | .nullableText get _ => inferInstanceAs (Decidable (Clean (get r)))
  | .uint64 _ _ | .uint64OrZero _ _ | .int _ _ | .bool _ _ | .choice _ _ _ => inferInstanceAs (Decidable True)

/-- An enumeration has no unclean text. -/
def Field.ChoiceClean : Field R → Prop
  | .choice _ get _ => ∀ r, Clean (get r)
  | _ => True

theorem clean_decimal (n : Nat) : Clean (decimal n) :=
  ⟨not_mem_decimal (by decide), not_mem_decimal (by decide)⟩

theorem clean_decimalInt (n : Int) : Clean (decimalInt n) :=
  ⟨not_mem_decimalInt (by decide) (by decide), not_mem_decimalInt (by decide) (by decide)⟩

theorem clean_mailDomainMode (mode : MailDomainMode) : Clean mode.toText := by
  cases mode <;> exact ⟨by decide, by decide⟩

theorem clean_permission (permission : Permission) : Clean permission.toText := by
  cases permission <;> exact ⟨by decide, by decide⟩

theorem clean_profileType (type : ProfileType) : Clean type.toText := by
  cases type <;> exact ⟨by decide, by decide⟩

theorem Field.clean_print {field : Field R} {r : R} (hText : field.TextClean r) (hChoice : field.ChoiceClean) :
    Clean (field.print r) := by
  cases field with
  | uint64 get set => exact clean_decimal _
  | uint64OrZero get set => exact clean_decimal _
  | int get set => exact clean_decimalInt _
  | bool get set =>
      simp only [Field.print]
      split <;> exact ⟨by decide, by decide⟩
  | text get set => exact hText
  | nullableText get set => exact hText
  | choice valid get set => exact hChoice r

/-- A field is read back from its own text. -/
theorem Field.scan_print (field : Field R) (source r : R) :
    field.scan (field.print source) r = some (field.copy source r) := by
  cases field with
  | uint64 get set => simp [Field.scan, Field.print, Field.copy]
  | uint64OrZero get set => simp [Field.scan, Field.print, Field.copy, decimal_ne_nil]
  | int get set => simp [Field.scan, Field.print, Field.copy]
  | bool get set =>
      have hDigits : bytes "0" ≠ bytes "1" := by decide
      cases hValue : get source <;> simp [Field.scan, Field.print, Field.copy, hValue, hDigits]
  | text get set => rfl
  | nullableText get set => rfl
  | choice valid get set => rfl

theorem scanFields_print (fields others : List (Field R)) (source r : R) :
    scanFields (fields ++ others) (fields.map (·.print source)) r = some (copyFields fields source r) := by
  induction fields generalizing r with
  | nil => cases others <;> rfl
  | cons field rest ih => simp [scanFields, Field.scan_print, ih, copyFields]

/-- A line is read back but for a last field with an empty text, which keeps its
default. -/
theorem scanFields_dropEmptyLast (fields : List (Field R)) (last : Field R) (source r : R) :
    scanFields (fields ++ [last]) (dropEmptyLast ((fields ++ [last]).map (·.print source))) r =
      some (if last.print source = [] then copyFields fields source r
        else copyFields (fields ++ [last]) source r) := by
  rw [List.map_append, List.map_singleton]
  split
  next hEmpty => rw [hEmpty, dropEmptyLast_concat_nil, scanFields_print]
  next hLast =>
      have hAll := scanFields_print (fields ++ [last]) [] source r
      rw [List.append_nil, List.map_append, List.map_singleton] at hAll
      rw [dropEmptyLast_concat _ hLast, hAll]

end Fields

namespace Resource

/-- The saved text fields of the record are clean. -/
def CleanRecord (resource : Resource) (record : resource.Record) : Prop :=
  ∀ field ∈ resource.lineFields, field.TextClean record

instance (resource : Resource) (record : resource.Record) : Decidable (resource.CleanRecord record) :=
  inferInstanceAs (Decidable (∀ field ∈ resource.lineFields, field.TextClean record))

theorem lineFields_choiceClean (resource : Resource) : ∀ field ∈ resource.lineFields, field.ChoiceClean := by
  cases resource <;>
    simp only [lineFields, List.forall_mem_cons, Field.ChoiceClean, clean_mailDomainMode, clean_permission,
      clean_profileType, List.not_mem_nil, false_imp_iff, implies_true, and_self]

theorem clean_print {resource : Resource} {record : resource.Record} (h : resource.CleanRecord record) :
    ∀ text ∈ resource.lineFields.map (·.print record), Clean text := by
  intro text hText
  obtain ⟨field, hField, rfl⟩ := List.mem_map.mp hText
  exact Field.clean_print (h field hField) (lineFields_choiceClean resource field hField)

theorem tokens_printLine {resource : Resource} {record : resource.Record} (h : resource.CleanRecord record)
    (hNe : resource.lineFields ≠ []) :
    getlines pipe (resource.printLine record) =
      dropEmptyLast (resource.lineFields.map (·.print record)) :=
  getlines_intercalate (by simpa using hNe) fun text hText => (clean_print h text hText).1

theorem newline_not_mem_printLine {resource : Resource} {record : resource.Record}
    (h : resource.CleanRecord record) : newline ∉ resource.printLine record := by
  intro hMem
  rcases mem_of_mem_intercalate hMem with hPipe | ⟨text, hText, hNewline⟩
  · exact absurd hPipe (by decide)
  · exact (clean_print h text hText).2 hNewline

theorem pipes_printLine {resource : Resource} {record : resource.Record} (h : resource.CleanRecord record)
    (hNe : resource.lineFields ≠ []) :
    (resource.printLine record).count pipe + 1 = resource.lineFields.length := by
  rw [← length_splitOn, printLine,
    List.splitOn_intercalate pipe (fun text hText => (clean_print h text hText).1) (by simpa using hNe),
    List.length_map]

theorem printLine_ne_nil {resource : Resource} {record : resource.Record}
    (hFirst : ∃ field rest, resource.lineFields = field :: rest ∧ field.print record ≠ []) :
    resource.printLine record ≠ [] := by
  obtain ⟨field, rest, hFields, hPrint⟩ := hFirst
  rw [printLine, hFields, List.map_cons]
  cases rest with
  | nil => simpa using hPrint
  | cons second others => simp [List.intercalate, hPrint]

/-- When a record comes back as it was: what the line does not hold has its
default, the name is the derived one, and a last field of text is not empty
where its default is not. -/
def Restorable : (resource : Resource) → resource.Record → Prop
  | nodes, _ => True
  | phpVersions, r => r.name = r.version
  | profiles, r => r.name = r.profileName
  | users, r => r.name = r.username
  | sites, r =>
      r.name = r.domain ∧ r.webServer ≠ [] ∧ r.phpMailEnabledPresent = true ∧ r.dbName = [] ∧
        r.dbUser = [] ∧ r.dbPassword = [] ∧ r.templateProfile = []
  | domains, r => r.name = r.fqdn ∧ r.type = bytes "primary" ∧ r.target = []
  | databases, r => r.name = r.dbName
  | backups, r =>
      r.name = r.filename ∧ r.compression ≠ [] ∧ r.manifestVersion = bytes "legacy_unknown" ∧
        r.backupCompleteness = bytes "legacy_unknown" ∧ r.containsDatabase = false ∧
          r.databaseStatus = bytes "legacy_unknown" ∧ r.databaseEngine = [] ∧ r.databaseName = [] ∧
            r.databaseDumpSize = 0 ∧ r.databaseDumpChecksum = [] ∧
              r.restoreCapability = bytes "files_only" ∧ r.warningCodes = []
  | reverseProxies, r => r.name = r.domain ∧ r.status ≠ []
  | accessUsers, r => r.name = r.username
  | accessGrants, r => r.name = decimal r.accessUserId.toNat ++ bytes "-" ++ decimal r.siteId.toNat
  | authUsers, r => r.name = r.username ∧ r.role ≠ []
  | sslCertificates, r => r.name = r.domain
  | mailDomains, r =>
      r.name = r.domainName ∧ r.dkimPrivateKeyPath = [] ∧ r.createdAt = [] ∧ r.updatedAt = []
  | mailMailboxes, r => r.name = r.localPart
  | mailAliases, r => r.name = r.sourceLocalPart
  | accessKeys, _ => False

/-- The first field of every line is the id. -/
theorem printLine_ne_nil_of_ne_accessKeys {resource : Resource} (record : resource.Record)
    (h : resource ≠ .accessKeys) : resource.printLine record ≠ [] := by
  apply printLine_ne_nil
  cases resource with
  | accessKeys => contradiction
  | _ => exact ⟨_, _, rfl, decimal_ne_nil _⟩

/-- The fields that a load finds in the line of a record: all but a last one
without text. -/
def storedFields (resource : Resource) (record : resource.Record) : List (Field resource.Record) :=
  if resource.lineFields.getLast?.map (·.print record) = some [] then resource.lineFields.dropLast
  else resource.lineFields

/-- What is scanned of a line that was printed. -/
theorem scanFields_printLine {resource : Resource} {record : resource.Record} (h : resource.CleanRecord record)
    (hNe : resource.lineFields ≠ []) (r : resource.Record) :
    scanFields resource.lineFields (getlines pipe (resource.printLine record)) r =
      some (copyFields (resource.storedFields record) record r) := by
  obtain ⟨fields, last, hFields⟩ : ∃ fields last, resource.lineFields = fields ++ [last] :=
    ⟨_, _, (List.dropLast_concat_getLast hNe).symm⟩
  rw [tokens_printLine h hNe, storedFields, hFields, scanFields_dropEmptyLast]
  split <;> simp_all

/-- What a load gives for the line of a record. -/
def restored : (resource : Resource) → resource.Record → resource.Record
  | sites, r => named .sites { copyFields (storedFields .sites r) r {} with phpMailEnabledPresent := true }
  | resource, r => resource.named (copyFields (resource.storedFields r) r resource.blank)

theorem lineFields_ne_nil {resource : Resource} (h : resource ≠ .accessKeys) : resource.lineFields ≠ [] := by
  cases resource with
  | accessKeys => contradiction
  | _ => exact List.cons_ne_nil _ _

theorem loadLine_printLine {resource : Resource} {record : resource.Record} (hKeys : resource ≠ .accessKeys)
    (h : resource.CleanRecord record) :
    resource.loadLine (resource.printLine record) = some (resource.restored record) := by
  have hNe := lineFields_ne_nil hKeys
  have hScan := scanFields_printLine h hNe
  have hPipes := pipes_printLine h hNe
  cases resource with
  | accessKeys => contradiction
  | sites =>
      have hCount : 5 ≤ (printLine .sites record).count pipe := by
        have hLength : (lineFields .sites).length = 7 := rfl
        omega
      rw [loadLine, loadSiteLine, hScan]
      simp [restored, hCount]
  | mailDomains =>
      have hCount : ¬(printLine .mailDomains record).count pipe ≤ 9 := by
        have hLength : (lineFields .mailDomains).length = 12 := rfl
        omega
      rw [loadLine, loadMailDomainLine, if_neg hCount]
      simp only [hScan]
      rfl
  | sslCertificates =>
      have hCount : 10 ≤ ((getlines pipe (printLine .sslCertificates record)).drop 6).length := by
        have hLength := length_le_dropEmptyLast ((lineFields .sslCertificates).map (·.print record))
        have hFields : ((lineFields .sslCertificates).map (·.print record)).length = 20 := rfl
        rw [tokens_printLine h hNe, List.length_drop]
        omega
      simp only [loadLine, loadSslLine, if_pos hCount, hScan]
      rfl
  | _ => simp only [loadLine, hScan, Option.map_some, restored]

theorem storedFields_of_print (resource : Resource) {record : resource.Record} (last : Field resource.Record)
    (hLast : resource.lineFields.getLast? = some last) (h : last.print record ≠ []) :
    resource.storedFields record = resource.lineFields := by
  simp [storedFields, hLast, h]

/-- Whether the last field is stored depends on whether it has a text. -/
theorem storedFields_cases {resource : Resource} (record : resource.Record) (last : Field resource.Record)
    (hLast : resource.lineFields.getLast? = some last) :
    last.print record = [] ∧ resource.storedFields record = resource.lineFields.dropLast ∨
      last.print record ≠ [] ∧ resource.storedFields record = resource.lineFields := by
  by_cases hPrint : last.print record = []
  · exact .inl ⟨hPrint, by simp [storedFields, hLast, hPrint]⟩
  · exact .inr ⟨hPrint, storedFields_of_print resource last hLast hPrint⟩

theorem bool_print_ne_nil {R : Type} (get : R → Bool) (set : Bool → R → R) (r : R) :
    (Field.bool get set).print r ≠ [] := by
  simp only [Field.print]
  split <;> decide

theorem permission_toText_ne_nil (permission : Permission) : permission.toText ≠ [] := by
  cases permission <;> decide

/-- The last field of a line, where it is no text, is always written. -/
def Closed (resource : Resource) : Bool :=
  match resource.lineFields.getLast? with
  | some (.bool ..) | some (.int ..) | some (.uint64OrZero ..) | some (.choice ..) => true
  | _ => false

theorem storedFields_of_closed {resource : Resource} (record : resource.Record) (h : resource.Closed = true) :
    resource.storedFields record = resource.lineFields := by
  cases resource with
  | phpVersions | profiles | users | domains | databases | accessUsers =>
      exact storedFields_of_print _ _ rfl (bool_print_ne_nil _ _ record)
  | accessGrants => exact storedFields_of_print .accessGrants .grantPermission rfl (permission_toText_ne_nil _)
  | sslCertificates => exact storedFields_of_print .sslCertificates .sslVersion rfl (decimalInt_ne_nil _)
  | mailDomains => exact storedFields_of_print .mailDomains .mailDomainMaxAliasesOrZero rfl (decimal_ne_nil _)
  | _ => cases h

theorem restored_eq_iff {resource : Resource} (record : resource.Record) (hKeys : resource ≠ .accessKeys) :
    resource.restored record = record ↔ resource.Restorable record := by
  have hDefaults : bytes "apache" ≠ [] ∧ bytes "gzip" ≠ [] ∧ bytes "active" ≠ [] ∧ bytes "admin" ≠ [] := by
    decide
  cases resource with
  | accessKeys => contradiction
  -- the last field is a text, which may be empty
  | nodes | sites | backups | reverseProxies | authUsers | mailMailboxes | mailAliases =>
      obtain ⟨hLast, hStored⟩ | ⟨hLast, hStored⟩ := storedFields_cases record _ rfl <;>
        simp only [restored, hStored] <;> cases record <;> simp only [List.getLast, Field.print] at hLast <;>
        simp only [lineFields, List.dropLast, copyFields, List.foldl, Field.copy, blank, named, Restorable] <;> grind
  | _ =>
      simp only [restored, storedFields_of_closed record rfl]
      cases record
      simp only [lineFields, copyFields, List.foldl, Field.copy, blank, named, Restorable]
      grind

end Resource

theorem mapM_eq_some_iff {α β : Type} (f : α → Option β) (g : β → α) (values : List β) :
    (values.map g).mapM f = some values ↔ ∀ value ∈ values, f (g value) = some value := by
  induction values with
  | nil => simp
  | cons value rest ih =>
      rw [List.map_cons, List.mapM_cons, List.forall_mem_cons, ← ih]
      cases hFirst : f (g value) with
      | none => simp
      | some first =>
          cases hRest : (rest.map g).mapM f with
          | none => simp
          | some others => simp

theorem getlines_saved {resource : Resource} {records : List resource.Record}
    (hClean : ∀ record ∈ records, resource.CleanRecord record) :
    getlines newline (records.flatMap fun record => resource.printLine record ++ [newline]) =
      records.map resource.printLine := by
  have hNewline : ∀ line ∈ records.map resource.printLine, newline ∉ line := by
    intro line hLine
    obtain ⟨record, hRecord, rfl⟩ := List.mem_map.mp hLine
    exact Resource.newline_not_mem_printLine (hClean record hRecord)
  have hLines := getlines_flatMap hNewline
  rwa [List.flatMap_map] at hLines

theorem dataLines_saved {resource : Resource} {records : List resource.Record} (hKeys : resource ≠ .accessKeys)
    (hClean : ∀ record ∈ records, resource.CleanRecord record) :
    Resource.dataLines (records.flatMap fun record => resource.printLine record ++ [newline]) =
      records.map resource.printLine := by
  rw [Resource.dataLines, getlines_saved hClean, List.filter_eq_self]
  intro line hLine
  obtain ⟨record, -, rfl⟩ := List.mem_map.mp hLine
  simpa using Resource.printLine_ne_nil_of_ne_accessKeys record hKeys

/-- A save and a load give the same records exactly when each of them is
restorable. -/
theorem loadTxt_saveTxt_iff (resource : Resource) (records : List resource.Record) (files : TxtFiles)
    (hClean : ∀ record ∈ records, resource.CleanRecord record) :
    loadTxt resource (saveTxt resource records files) = some records ↔
      ∀ record ∈ records, resource.Restorable record := by
  by_cases hKeys : resource = .accessKeys
  · subst hKeys
    cases records with
    | nil => simp [loadTxt]
    | cons record rest =>
        constructor
        · intro hLoad
          simp [loadTxt] at hLoad
        · intro hRestorable
          exact absurd (hRestorable record List.mem_cons_self) id
  · have hLoad : loadTxt resource (saveTxt resource records files) =
        (records.map resource.printLine).mapM resource.loadLine := by
      rw [← dataLines_saved hKeys hClean]
      cases resource with
      | accessKeys => contradiction
      | _ => simp [loadTxt, saveTxt]
    rw [hLoad, mapM_eq_some_iff]
    refine forall₂_congr fun record hRecord => ?_
    rw [Resource.loadLine_printLine hKeys (hClean record hRecord), Option.some.injEq,
      Resource.restored_eq_iff record hKeys]

/-- A login whose role is the empty text. -/
def unprivilegedUser : AuthUser := { id := 1, name := bytes "bob", username := bytes "bob", role := [] }

theorem loadTxt_saveTxt_iff_viewer :
    (∀ record ∈ [({ unprivilegedUser with role := bytes "viewer" } : AuthUser)],
        Resource.CleanRecord .authUsers record) ∧
      loadTxt .authUsers (saveTxt .authUsers [{ unprivilegedUser with role := bytes "viewer" }] fun _ => none) =
        some [{ unprivilegedUser with role := bytes "viewer" }] := by
  have hClean : ∀ record ∈ [({ unprivilegedUser with role := bytes "viewer" } : AuthUser)],
      Resource.CleanRecord .authUsers record := by decide
  refine ⟨hClean, (loadTxt_saveTxt_iff .authUsers _ _ hClean).mpr fun record hRecord => ?_⟩
  rw [List.mem_singleton.mp hRecord]
  exact ⟨rfl, by decide⟩

/-- The empty role comes back as "admin". -/
theorem loadTxt_saveTxt_admin :
    Resource.CleanRecord .authUsers unprivilegedUser ∧
      loadTxt .authUsers (saveTxt .authUsers [unprivilegedUser] fun _ => none) =
        some [{ unprivilegedUser with role := bytes "admin" }] ∧
      loadTxt .authUsers (saveTxt .authUsers [unprivilegedUser] fun _ => none) ≠ some [unprivilegedUser] := by
  have hLoad : loadTxt .authUsers (saveTxt .authUsers [unprivilegedUser] fun _ => none) =
      some [{ unprivilegedUser with role := bytes "admin" }] := by decide
  refine ⟨by decide, hLoad, ?_⟩
  rw [hLoad]
  decide

end ContainerCP.Storage
