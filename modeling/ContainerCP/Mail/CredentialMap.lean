import ContainerCP.Data.KeyedLines
import ContainerCP.Mail.SiteMailCredentials
import ContainerCP.Text.Lines

/-! The credentials of the sites as a map: what a sequence of calls leaves in the two files, and
what `find` says of it. -/
namespace ContainerCP.Mail

/-- A call, with what is drawn for it and how its commands end; the files can be written. -/
inductive CredentialCall where
  | apply (site : UInt64) (domain : Bytes) (random : Option Bytes) (hash : Bytes → Bytes) (postmap reload : CommandResult)
  | remove (site : UInt64)

namespace CredentialCall

def site : CredentialCall → UInt64
  | apply site .. => site
  | remove site => site

/-- What the site has after the call. -/
def credential : CredentialCall → Option Credential
  | apply site domain random hash _ _ => some (generate random hash site domain)
  | remove _ => none

def step : CredentialCall → MailFiles → MailFiles
  | apply site domain random hash postmap reload, files =>
      (Mail.apply { postmap := postmap, reload := reload } (generate random hash site domain) files).2
  | remove site, files => (Mail.remove {} site files).2

end CredentialCall

def runCalls (calls : List CredentialCall) (files : MailFiles) : MailFiles := calls.foldl (fun files call => call.step files) files

/-- What each site has after the calls. -/
def lastOf (last : UInt64 → Option Credential) (calls : List CredentialCall) : UInt64 → Option Credential :=
  calls.foldl (fun last call => Function.update last call.site call.credential) last

def passwdLines (files : MailFiles) : List Bytes := getlines newline (contentOf (files .passwdPhp))

def loginLines (files : MailFiles) : List Bytes := getlines newline (contentOf (files .senderLogin))

/-- A line of `passwd-php` is a site's own when its first field is the username. -/
def isPasswdEntry (site : UInt64) (line : Bytes) : Bool := (usernameOf site ++ bytes ":").isPrefixOf line

/-- A line of the map is a site's own when its value is the username. -/
def isLoginEntry (site : UInt64) (line : Bytes) : Bool := (tab :: usernameOf site).isSuffixOf line

def mentionsSite (site : UInt64) (line : Bytes) : Bool := mentions (usernameOf site) line

def passwdExpected (credential : Option Credential) : List Bytes := credential.elim [] fun credential => [passwdEntry credential]

def loginExpected (credential : Option Credential) : List Bytes := credential.elim [] loginEntries

/-- The sites have the lines of their credentials, and no others; all the other lines are the
ones of before, in their order. -/
structure Stored (sites : List UInt64) (before : MailFiles) (last : UInt64 → Option Credential) (files : MailFiles) : Prop where
  passwd : KeyedLines isPasswdEntry sites (passwdExpected ∘ last) (passwdLines before) (passwdLines files)
  login : KeyedLines isLoginEntry sites (loginExpected ∘ last) (loginLines before) (loginLines files)

/-- Of the sites called, those with a credential are found, by their username. -/
def FoundByName (called : List UInt64) (last : UInt64 → Option Credential) (files : MailFiles) : Prop :=
  ∀ site ∈ called, (find site files).map Credential.username = (last site).map Credential.username

/-- They are found with the domain of their credential, too. -/
def Found (called : List UInt64) (last : UInt64 → Option Credential) (files : MailFiles) : Prop :=
  ∀ site ∈ called, (find site files).map (fun found => (found.username, found.domain)) =
    (last site).map fun credential => (credential.username, credential.domain)

/-- Only the site's own lines mention it. -/
structure OwnOnly (site : UInt64) (files : MailFiles) : Prop where
  passwd : ∀ line ∈ passwdLines files, mentionsSite site line = true → isPasswdEntry site line = true
  login : ∀ line ∈ loginLines files, mentionsSite site line = true → isLoginEntry site line = true

/-- What a call needs of the state before it, and of its own arguments. -/
def CredentialCall.Meets (call : CredentialCall) (files : MailFiles) : Prop :=
  match call with
  | .apply site domain random hash _ _ => newline ∉ domain ∧ newline ∉ (generate random hash site domain).passwordHash ∧ OwnOnly site files
  | .remove site => contentOf (files .passwdPhp) = [] ∨ OwnOnly site files

def EachMeets : List CredentialCall → MailFiles → Prop
  | [], _ => True
  | call :: rest, files => call.Meets files ∧ EachMeets rest (call.step files)

/-! ## Usernames and entries -/

theorem notMem_usernameOf {c : UInt8} (hDigit : isDigit c = false) (hFront : c ∉ bytes "site-")
    (hBehind : c ∉ bytes "@php.containercp.internal") (site : UInt64) : c ∉ usernameOf site := by
  rw [usernameOf, List.mem_append, List.mem_append, not_or, not_or]
  exact ⟨⟨hFront, not_mem_decimal hDigit⟩, hBehind⟩

theorem usernameOf_injective : Function.Injective usernameOf := Function.LeftInverse.injective siteOf_usernameOf

theorem newline_notMem_usernameOf (site : UInt64) : newline ∉ usernameOf site :=
  notMem_usernameOf (by decide) (by decide) (by decide) site

theorem tab_notMem_usernameOf (site : UInt64) : tab ∉ usernameOf site :=
  notMem_usernameOf (by decide) (by decide) (by decide) site

/-- A username at the front of a text that begins with a username is that one. -/
theorem site_of_startsWith {site other : UInt64} {rest : Bytes} (h : usernameOf other <+: usernameOf site ++ rest) : other = site := by
  have hCut : ∀ (site : UInt64) (text : Bytes), usernameOf site <+: text →
      (cutAt (ascii '@') text).map Prod.fst = some (bytes "site-" ++ decimal site.toNat) := by
    rintro site text ⟨behind, rfl⟩
    rw [usernameOf_split, List.append_assoc, List.cons_append, cutAt_append (notMem_site site), cutAt, if_pos rfl]
    simp
  have hSame := (hCut other _ h).symm.trans (hCut site _ (List.prefix_append _ _))
  have hDecimal := decimal_injective (List.append_cancel_left (Option.some.inj hSame))
  exact UInt64.toNat_inj.mp hDecimal

theorem mentionsSite_of_prefix {site : UInt64} {line : Bytes} (h : usernameOf site <+: line) : mentionsSite site line = true :=
  mentions_iff.mpr h.isInfix

theorem prefix_of_isPasswdEntry {site : UInt64} {line : Bytes} (h : isPasswdEntry site line = true) : usernameOf site <+: line :=
  (List.prefix_append _ _).trans (List.isPrefixOf_iff_prefix.mp h)

theorem mentionsSite_of_isPasswdEntry {site : UInt64} (line : Bytes) (h : isPasswdEntry site line = true) :
    mentionsSite site line = true :=
  mentionsSite_of_prefix (prefix_of_isPasswdEntry h)

theorem mentionsSite_of_isLoginEntry {site : UInt64} (line : Bytes) (h : isLoginEntry site line = true) :
    mentionsSite site line = true :=
  mentions_iff.mpr ((List.suffix_cons _ _).trans (List.isSuffixOf_iff_suffix.mp h)).isInfix

theorem isPasswdEntry_unique {site : UInt64} (other : UInt64) (line : Bytes) (h : isPasswdEntry site line = true)
    (hOther : isPasswdEntry other line = true) : other = site := by
  obtain ⟨rest, rfl⟩ := prefix_of_isPasswdEntry h
  exact site_of_startsWith (prefix_of_isPasswdEntry hOther)

theorem isLoginEntry_unique {site : UInt64} (other : UInt64) (line : Bytes) (h : isLoginEntry site line = true)
    (hOther : isLoginEntry other line = true) : other = site := by
  have hCut : ∀ site : UInt64, isLoginEntry site line = true →
      (cutAt tab line.reverse).map Prod.fst = some (usernameOf site).reverse := by
    intro site hEntry
    obtain ⟨front, rfl⟩ := List.isSuffixOf_iff_suffix.mp hEntry
    have hNot : tab ∉ (usernameOf site).reverse := fun hMem => tab_notMem_usernameOf site (List.mem_reverse.mp hMem)
    rw [List.reverse_append, List.reverse_cons, List.append_assoc, cutAt_append hNot, List.singleton_append, cutAt, if_pos rfl]
    simp
  have hSame := (hCut other hOther).symm.trans (hCut site h)
  exact usernameOf_injective (List.reverse_injective (Option.some.inj hSame))

theorem isPasswdEntry_generate (random : Option Bytes) (hash : Bytes → Bytes) (site : UInt64) (domain : Bytes) :
    isPasswdEntry site (passwdEntry (generate random hash site domain)) = true := by
  rw [isPasswdEntry, List.isPrefixOf_iff_prefix, passwdEntry, List.append_assoc]
  exact List.prefix_append _ _

theorem isLoginEntry_generate {random : Option Bytes} {hash : Bytes → Bytes} {site : UInt64} {domain : Bytes} :
    ∀ line ∈ loginEntries (generate random hash site domain), isLoginEntry site line = true := by
  intro line hLine
  rw [isLoginEntry, List.isSuffixOf_iff_suffix]
  rcases List.mem_cons.mp hLine with rfl | hLine
  · exact ⟨bytes "wordpress@" ++ domain, by simp [generate]⟩
  · rw [List.mem_singleton.mp hLine]
    exact ⟨bytes "@" ++ domain, by simp [generate]⟩

/-! ## What one call does -/

theorem getlines_keptLines {username content : Bytes} {new : List Bytes} (hNew : ∀ line ∈ new, newline ∉ line) :
    getlines newline (keptLines username content ++ unlines new) =
      (getlines newline content).filter (fun line => !mentions username line) ++ new := by
  rw [keptLines, ← unlines_append, unlines, getlines_flatMap]
  intro line hLine
  rcases List.mem_append.mp hLine with hOld | hLine
  · exact notMem_of_mem_getlines (List.mem_of_mem_filter hOld)
  · exact hNew line hLine

section Steps

variable {files : MailFiles} {site : UInt64} {domain : Bytes} {random : Option Bytes} {hash : Bytes → Bytes}
  {postmap reload : CommandResult}

/-- An apply writes both files, however its commands end. -/
theorem step_apply (hFile : files .passwdPhp ≠ some .special) :
    (CredentialCall.apply site domain random hash postmap reload).step files =
      Function.update (Function.update files .passwdPhp (some (.regular (keptLines (usernameOf site) (contentOf (files .passwdPhp)) ++
        unlines [passwdEntry (generate random hash site domain)])))) .senderLogin
        (some (.regular (keptLines (usernameOf site) (contentOf (files .senderLogin)) ++
          unlines (loginEntries (generate random hash site domain))))) := by
  rw [CredentialCall.step, Mail.apply]
  simp only [hFile, decide_false, Bool.false_and, Bool.false_eq_true, if_false, Bool.not_true]
  rw [Function.update_of_ne (by decide : MailFile.senderLogin ≠ .passwdPhp)]
  split
  · rfl
  · split <;> rfl

theorem passwdLines_apply (hFile : files .passwdPhp ≠ some .special)
    (hHash : newline ∉ passwdEntry (generate random hash site domain)) :
    passwdLines ((CredentialCall.apply site domain random hash postmap reload).step files) =
      replaceFor mentionsSite site [passwdEntry (generate random hash site domain)] (passwdLines files) := by
  rw [step_apply hFile, passwdLines, Function.update_of_ne (by decide), Function.update_self, contentOf,
    getlines_keptLines (by simpa using hHash)]
  rfl

theorem loginLines_apply (hFile : files .passwdPhp ≠ some .special)
    (hDomain : ∀ line ∈ loginEntries (generate random hash site domain), newline ∉ line) :
    loginLines ((CredentialCall.apply site domain random hash postmap reload).step files) =
      replaceFor mentionsSite site (loginEntries (generate random hash site domain)) (loginLines files) := by
  rw [step_apply hFile, loginLines, Function.update_self, contentOf, getlines_keptLines hDomain]
  rfl

/-- A removal does nothing where `passwd-php` is empty. -/
theorem step_remove_of_nil (h : contentOf (files .passwdPhp) = []) : (CredentialCall.remove site).step files = files := by
  rw [CredentialCall.step, Mail.remove]
  dsimp only
  rw [if_pos h]

theorem getlines_kept (username content : Bytes) :
    getlines newline (keptLines username content) = (getlines newline content).filter fun line => !mentions username line := by
  have hNone : ∀ line ∈ ([] : List Bytes), newline ∉ line := by simp
  have hKept : getlines newline (keptLines username content ++ unlines []) =
      (getlines newline content).filter (fun line => !mentions username line) ++ [] := getlines_keptLines hNone
  simpa [unlines] using hKept

theorem ite_update_of_ne {file other : MailFile} (hNe : other ≠ file) (condition : Bool) (node : Option Node) (files : MailFiles) :
    (if condition then Function.update files file node else files) other = files other := by
  cases condition with
  | true => exact Function.update_of_ne hNe _ _
  | false => rfl

/-- A file that is written only where something is to be taken out of it. -/
theorem getlines_rewritten {username : Bytes} {file : MailFile} {condition : Bool}
    (h : condition = false → ∀ line ∈ getlines newline (contentOf (files file)), mentions username line = false) :
    getlines newline (contentOf ((if condition then
        Function.update files file (some (.regular (keptLines username (contentOf (files file))))) else files) file)) =
      (getlines newline (contentOf (files file))).filter fun line => !mentions username line := by
  cases condition with
  | true => rw [if_pos rfl, Function.update_self, contentOf, getlines_kept]
  | false =>
      rw [if_neg Bool.false_ne_true, eq_comm, List.filter_eq_self]
      intro line hLine
      rw [h rfl line hLine]
      rfl

theorem passwdLines_remove (h : contentOf (files .passwdPhp) ≠ []) :
    passwdLines ((CredentialCall.remove site).step files) = replaceFor mentionsSite site [] (passwdLines files) := by
  rw [CredentialCall.step, Mail.remove, replaceFor, List.append_nil, passwdLines]
  dsimp only
  rw [if_neg h]
  dsimp only
  rw [ite_update_of_ne (by decide), Bool.and_true]
  refine getlines_rewritten fun hNone line hLine => ?_
  rw [List.any_eq_false] at hNone
  simpa using hNone line hLine

theorem loginLines_remove (h : contentOf (files .passwdPhp) ≠ []) :
    loginLines ((CredentialCall.remove site).step files) = replaceFor mentionsSite site [] (loginLines files) := by
  rw [CredentialCall.step, Mail.remove, replaceFor, List.append_nil, loginLines, loginLines]
  dsimp only
  rw [if_neg h]
  have hMid := ite_update_of_ne (by decide : MailFile.senderLogin ≠ .passwdPhp)
    ((getlines newline (contentOf (files .passwdPhp))).any (mentions (usernameOf site)) && true)
    (some (.regular (keptLines (usernameOf site) (contentOf (files .passwdPhp))))) files
  generalize (if ((getlines newline (contentOf (files .passwdPhp))).any (mentions (usernameOf site)) && true) = true then
    Function.update files .passwdPhp (some (.regular (keptLines (usernameOf site) (contentOf (files .passwdPhp))))) else files) =
    mid at hMid ⊢
  dsimp only
  rw [← hMid]
  refine getlines_rewritten fun hNone line hLine => ?_
  simp only [Bool.and_true, decide_eq_false_iff_not, not_not] at hNone
  rw [hNone] at hLine
  exact absurd hLine List.not_mem_nil

theorem regular_remove (h : files .passwdPhp ≠ some .special) : (CredentialCall.remove site).step files .passwdPhp ≠ some .special := by
  by_cases hEmpty : contentOf (files .passwdPhp) = []
  · rwa [step_remove_of_nil hEmpty]
  · rw [CredentialCall.step, Mail.remove]
    dsimp only
    rw [if_neg hEmpty]
    dsimp only
    rw [ite_update_of_ne (by decide)]
    split
    · rw [Function.update_self]
      exact fun hEq => by cases hEq
    · exact h

theorem newline_passwdEntry :
    newline ∉ passwdEntry (generate random hash site domain) ↔ newline ∉ (generate random hash site domain).passwordHash := by
  have hName : newline ∉ (generate random hash site domain).username := newline_notMem_usernameOf site
  have hColon : newline ∉ bytes ":" := by decide
  have hRest : newline ∉ bytes ":65534:65534::/nonexistent::" := by decide
  simp only [passwdEntry, List.mem_append, hName, hColon, hRest, false_or, or_false]

theorem newline_loginEntries :
    (∀ line ∈ loginEntries (generate random hash site domain), newline ∉ line) ↔ newline ∉ domain := by
  have hName : newline ∉ (generate random hash site domain).username := newline_notMem_usernameOf site
  have hDomain : (generate random hash site domain).domain = domain := rfl
  have hFirst : newline ∉ bytes "wordpress@" := by decide
  have hSecond : newline ∉ bytes "@" := by decide
  have hTab : newline ∉ [tab] := by decide
  simp only [loginEntries, List.forall_mem_cons, List.mem_append, hName, hDomain, hFirst, hSecond, hTab, false_or, or_false,
    List.not_mem_nil, false_imp_iff, implies_true, and_true, and_self]

end Steps

/-! ## Runs -/

variable {sites called : List UInt64} {before files : MailFiles} {last : UInt64 → Option Credential} {call : CredentialCall}

/-- What holds in every state as long as each call meets its condition: besides the lines, no
line but its own begins with the username of a site that was called. -/
structure Tracked (sites called : List UInt64) (before : MailFiles) (last : UInt64 → Option Credential) (files : MailFiles) :
    Prop where
  regular : files .passwdPhp ≠ some .special
  stored : Stored sites before last files
  named : ∀ site credential, last site = some credential → credential.username = usernameOf site
  passwd : ∀ site ∈ called, ∀ line ∈ passwdLines files, usernameOf site <+: line → isPasswdEntry site line = true
  login : ∀ site, last site ≠ none → ∀ line ∈ loginLines files, ¬usernameOf site <+: line

theorem passwdExpected_update (site : UInt64) (credential : Option Credential) :
    passwdExpected ∘ Function.update last site credential = Function.update (passwdExpected ∘ last) site (passwdExpected credential) :=
  Function.comp_update _ _ _ _

theorem loginExpected_update (site : UInt64) (credential : Option Credential) :
    loginExpected ∘ Function.update last site credential = Function.update (loginExpected ∘ last) site (loginExpected credential) :=
  Function.comp_update _ _ _ _

/-- Both files replaced for a site. -/
theorem stored_replaceFor_iff {site : UInt64} {credential : Option Credential} {after : MailFiles} (hSite : site ∈ sites)
    (hStored : Stored sites before last files)
    (hPasswdEntry : ∀ line ∈ passwdExpected credential, isPasswdEntry site line = true)
    (hLoginEntry : ∀ line ∈ loginExpected credential, isLoginEntry site line = true)
    (hPasswd : passwdLines after = replaceFor mentionsSite site (passwdExpected credential) (passwdLines files))
    (hLogin : loginLines after = replaceFor mentionsSite site (loginExpected credential) (loginLines files)) :
    Stored sites before (Function.update last site credential) after ↔ OwnOnly site files := by
  have hPasswdIff := keyedLines_replaceFor_iff mentionsSite_of_isPasswdEntry isPasswdEntry_unique
    hPasswdEntry hSite hStored.passwd
  have hLoginIff := keyedLines_replaceFor_iff mentionsSite_of_isLoginEntry isLoginEntry_unique
    hLoginEntry hSite hStored.login
  rw [← passwdExpected_update, ← hPasswd] at hPasswdIff
  rw [← loginExpected_update, ← hLogin] at hLoginIff
  exact ⟨fun h => ⟨hPasswdIff.mp h.passwd, hLoginIff.mp h.login⟩, fun h => ⟨hPasswdIff.mpr h.passwd, hLoginIff.mpr h.login⟩⟩

theorem mem_of_stored_passwd {site : UInt64} {credential : Credential} (hSite : site ∈ sites)
    (h : Stored sites before last files) (hLast : last site = some credential) : passwdEntry credential ∈ passwdLines files := by
  have hLines := h.passwd.entries site hSite
  rw [Function.comp_apply, hLast] at hLines
  have hMem : passwdEntry credential ∈ (passwdLines files).filter (isPasswdEntry site) := by
    rw [hLines]
    exact List.mem_singleton_self _
  exact List.mem_of_mem_filter hMem

theorem mem_of_stored_login {site : UInt64} {credential : Credential} (hSite : site ∈ sites) (h : Stored sites before last files)
    (hLast : last site = some credential) : ∀ line ∈ loginEntries credential, line ∈ loginLines files := by
  intro line hLine
  have hLines := h.login.entries site hSite
  rw [Function.comp_apply, hLast] at hLines
  have hMem : line ∈ (loginLines files).filter (isLoginEntry site) := by
    rw [hLines]
    exact hLine
  exact List.mem_of_mem_filter hMem

/-- One call keeps the lines as they should be if and only if it meets its condition. -/
theorem stored_step_iff (h : Tracked sites called before last files) (hSite : call.site ∈ sites) :
    Stored sites before (Function.update last call.site call.credential) (call.step files) ↔ call.Meets files := by
  cases call with
  | apply site domain random hash postmap reload =>
      have hEach : newline ∉ (generate random hash site domain).passwordHash → newline ∉ domain →
          (Stored sites before (Function.update last site (some (generate random hash site domain)))
            ((CredentialCall.apply site domain random hash postmap reload).step files) ↔ OwnOnly site files) := by
        intro hHash hDomain
        refine stored_replaceFor_iff hSite h.stored ?_ isLoginEntry_generate (passwdLines_apply h.regular (newline_passwdEntry.mpr hHash))
          (loginLines_apply h.regular (newline_loginEntries.mpr hDomain))
        intro line hLine
        rw [List.mem_singleton.mp hLine]
        exact isPasswdEntry_generate random hash site domain
      constructor
      · intro hAfter
        have hLast : Function.update last site (some (generate random hash site domain)) site =
            some (generate random hash site domain) := Function.update_self _ _ _
        have hHash : newline ∉ (generate random hash site domain).passwordHash :=
          newline_passwdEntry.mp (notMem_of_mem_getlines (mem_of_stored_passwd hSite hAfter hLast))
        have hDomain : newline ∉ domain := newline_loginEntries.mp fun line hLine =>
          notMem_of_mem_getlines (mem_of_stored_login hSite hAfter hLast line hLine)
        exact ⟨hDomain, hHash, (hEach hHash hDomain).mp hAfter⟩
      · rintro ⟨hDomain, hHash, hOwn⟩
        exact (hEach hHash hDomain).mpr hOwn
  | remove site =>
      by_cases hEmpty : contentOf (files .passwdPhp) = []
      · have hNone : last site = none := by
          have hLines := h.stored.passwd.entries site hSite
          rw [passwdLines, hEmpty] at hLines
          cases hLast : last site with
          | none => rfl
          | some credential =>
              rw [Function.comp_apply, hLast] at hLines
              cases hLines
        have hSame : Function.update last site none = last := by rw [← hNone, Function.update_eq_self]
        rw [step_remove_of_nil hEmpty]
        refine ⟨fun _ => .inl hEmpty, fun _ => ?_⟩
        rw [CredentialCall.site, CredentialCall.credential, hSame]
        exact h.stored
      · have hIff : Stored sites before (Function.update last site none) ((CredentialCall.remove site).step files) ↔ OwnOnly site files :=
          stored_replaceFor_iff hSite h.stored (fun _ hLine => absurd hLine List.not_mem_nil)
            (fun _ hLine => absurd hLine List.not_mem_nil) (passwdLines_remove hEmpty) (loginLines_remove hEmpty)
        exact ⟨fun hAfter => .inr (hIff.mp hAfter), fun hMeets => hIff.mpr (hMeets.resolve_left hEmpty)⟩

theorem mem_replaceFor {Key Line : Type} {mentions : Key → Line → Bool} {key : Key} {new lines : List Line} {line : Line} :
    line ∈ replaceFor mentions key new lines ↔ line ∈ lines ∧ mentions key line = false ∨ line ∈ new := by
  simp [replaceFor]

/-- Lines that begin with a username, behind a replacement in `passwd-php`. -/
theorem passwd_quiet_replaceFor {site : UInt64} {new lines : List Bytes}
    (h : ∀ other ∈ called, ∀ line ∈ lines, usernameOf other <+: line → isPasswdEntry other line = true)
    (hNew : ∀ line ∈ new, isPasswdEntry site line = true) (other : UInt64) (hOther : other ∈ called ++ [site]) (line : Bytes)
    (hLine : line ∈ replaceFor mentionsSite site new lines) (hPrefix : usernameOf other <+: line) : isPasswdEntry other line = true := by
  rcases mem_replaceFor.mp hLine with ⟨hOld, hNot⟩ | hLine
  · rcases List.mem_append.mp hOther with hCalled | hSite
    · exact h other hCalled line hOld hPrefix
    · rw [← List.mem_singleton.mp hSite, mentionsSite_of_prefix hPrefix] at hNot
      cases hNot
  · obtain ⟨rest, rfl⟩ := prefix_of_isPasswdEntry (hNew line hLine)
    rw [site_of_startsWith hPrefix]
    exact hNew _ hLine

theorem not_prefix_loginEntries {credential : Credential} (other : UInt64) :
    ∀ line ∈ loginEntries credential, ¬usernameOf other <+: line := by
  have hHead : ∀ text : Bytes, (usernameOf other) <+: text → text.head? = some (ascii 's') := by
    rintro text ⟨rest, rfl⟩
    rfl
  intro line hLine hPrefix
  rcases List.mem_cons.mp hLine with rfl | hLine
  · exact absurd (Option.some.inj (hHead _ hPrefix)) (by decide)
  · rw [List.mem_singleton.mp hLine] at hPrefix
    exact absurd (Option.some.inj (hHead _ hPrefix)) (by decide)

theorem Tracked.step (h : Tracked sites called before last files) (hSite : call.site ∈ sites) (hMeets : call.Meets files) :
    Tracked sites (called ++ [call.site]) before (Function.update last call.site call.credential) (call.step files) := by
  have hStored := (stored_step_iff h hSite).mpr hMeets
  have hNamed : ∀ site credential, Function.update last call.site call.credential site = some credential →
      credential.username = usernameOf site := by
    intro site credential hLast
    by_cases hSame : site = call.site
    · rw [hSame, Function.update_self] at hLast
      rw [hSame]
      cases call with
      | apply site domain random hash postmap reload => rw [← Option.some.inj hLast]; rfl
      | remove site => cases hLast
    · rw [Function.update_of_ne hSame] at hLast
      exact h.named site credential hLast
  cases call with
  | apply site domain random hash postmap reload =>
      obtain ⟨hDomain, hHash, -⟩ := hMeets
      refine ⟨?_, hStored, hNamed, ?_, ?_⟩
      · rw [step_apply h.regular, Function.update_of_ne (by decide), Function.update_self]
        exact fun hEq => by cases hEq
      · rw [passwdLines_apply h.regular (newline_passwdEntry.mpr hHash)]
        refine passwd_quiet_replaceFor h.passwd fun line hLine => ?_
        rw [List.mem_singleton.mp hLine]
        exact isPasswdEntry_generate random hash site domain
      · intro other hLast line hLine hPrefix
        rw [loginLines_apply h.regular (newline_loginEntries.mpr hDomain)] at hLine
        rcases mem_replaceFor.mp hLine with ⟨hOld, hNot⟩ | hNew
        · by_cases hSame : other = site
          · rw [← hSame, mentionsSite_of_prefix hPrefix] at hNot
            cases hNot
          · exact h.login other (by rwa [CredentialCall.site, Function.update_of_ne hSame] at hLast) line hOld hPrefix
        · exact not_prefix_loginEntries other line hNew hPrefix
  | remove site =>
      have hLogin : ∀ line ∈ loginLines ((CredentialCall.remove site).step files), line ∈ loginLines files := by
        intro line hLine
        by_cases hEmpty : contentOf (files .passwdPhp) = []
        · rwa [step_remove_of_nil hEmpty] at hLine
        · rw [loginLines_remove hEmpty] at hLine
          exact ((mem_replaceFor.mp hLine).resolve_right List.not_mem_nil).1
      refine ⟨regular_remove h.regular, hStored, hNamed, ?_, ?_⟩
      · by_cases hEmpty : contentOf (files .passwdPhp) = []
        · rw [step_remove_of_nil hEmpty]
          intro other _ line hLine
          rw [passwdLines, hEmpty] at hLine
          exact absurd hLine List.not_mem_nil
        · rw [passwdLines_remove hEmpty]
          exact passwd_quiet_replaceFor h.passwd fun _ hLine => absurd hLine List.not_mem_nil
      · intro other hLast line hLine
        by_cases hSame : other = site
        · rw [hSame] at hLast
          exact absurd (Function.update_self _ _ _) hLast
        · exact h.login other (by rwa [CredentialCall.site, Function.update_of_ne hSame] at hLast) line (hLogin line hLine)

/-- What `find` gives: the username, and never a domain. -/
theorem find_eq (h : Tracked sites called before last files) {site : UInt64} (hSite : site ∈ sites) (hCalled : site ∈ called) :
    find site files = (last site).map fun _ => { username := usernameOf site } := by
  have hLines := h.stored.passwd.entries site hSite
  rw [Function.comp_apply] at hLines
  cases hLast : last site with
  | none =>
      rw [hLast] at hLines
      have hNone : (passwdLines files).any (usernameOf site).isPrefixOf = false := by
        rw [List.any_eq_false]
        intro line hLine hPrefix
        have hMem : line ∈ (passwdLines files).filter (isPasswdEntry site) :=
          List.mem_filter.mpr ⟨hLine, h.passwd site hCalled line hLine (List.isPrefixOf_iff_prefix.mp hPrefix)⟩
        rw [hLines] at hMem
        exact absurd hMem List.not_mem_nil
      rw [passwdLines] at hNone
      rw [find]
      split
      · rfl
      · rename_i node hNode
        rw [hNode] at hNone
        rw [hNone]
        rfl
  | some credential =>
      have hMem : passwdEntry credential ∈ passwdLines files := mem_of_stored_passwd hSite h.stored hLast
      have hFound : (passwdLines files).any (usernameOf site).isPrefixOf = true := by
        rw [List.any_eq_true]
        refine ⟨_, hMem, ?_⟩
        rw [List.isPrefixOf_iff_prefix, passwdEntry, h.named site credential hLast, List.append_assoc, List.append_assoc]
        exact List.prefix_append _ _
      have hDomain : domainFrom (usernameOf site) (contentOf (files .senderLogin)) = [] := by
        have hNone : (loginLines files).find? (usernameOf site).isPrefixOf = none := by
          rw [List.find?_eq_none]
          intro line hLine hPrefix
          exact h.login site (by rw [hLast]; exact Option.some_ne_none _) line hLine (List.isPrefixOf_iff_prefix.mp hPrefix)
        rw [domainFrom, ← loginLines, hNone]
      rw [passwdLines] at hFound hMem
      rw [find]
      split
      · rename_i hNode
        rw [hNode] at hMem
        exact absurd hMem List.not_mem_nil
      · rename_i node hNode
        rw [hNode] at hFound
        rw [if_pos hFound, hDomain]
        rfl

theorem tracked_run {calls : List CredentialCall} (h : Tracked sites called before last files)
    (hSites : ∀ call ∈ calls, call.site ∈ sites) (hMeets : EachMeets calls files) :
    Tracked sites (called ++ calls.map CredentialCall.site) before (lastOf last calls) (runCalls calls files) := by
  induction calls generalizing called last files with
  | nil => rwa [List.map_nil, List.append_nil]
  | cons call rest ih =>
      have hNext := ih (h.step (hSites call List.mem_cons_self) hMeets.1) (fun other hOther => hSites other (List.mem_cons_of_mem _ hOther))
        hMeets.2
      rwa [List.append_assoc] at hNext

/-- From the state before it each call is seen to have met its condition. -/
theorem eachMeets_of_stored {calls : List CredentialCall} (h : Tracked sites called before last files)
    (hSites : ∀ call ∈ calls, call.site ∈ sites)
    (hStored : ∀ done rest, calls = done ++ rest → Stored sites before (lastOf last done) (runCalls done files)) :
    EachMeets calls files := by
  induction calls generalizing called last files with
  | nil => trivial
  | cons call rest ih =>
      have hMeets : call.Meets files := (stored_step_iff h (hSites call List.mem_cons_self)).mp (hStored [call] rest rfl)
      refine ⟨hMeets, ih (h.step (hSites call List.mem_cons_self) hMeets)
        (fun other hOther => hSites other (List.mem_cons_of_mem _ hOther)) ?_⟩
      rintro done others rfl
      exact hStored (call :: done) others rfl

theorem eachMeets_of_append {calls more : List CredentialCall} (h : EachMeets (calls ++ more) files) : EachMeets calls files := by
  induction calls generalizing files with
  | nil => trivial
  | cons call rest ih => exact ⟨h.1, ih h.2⟩

theorem lastOf_concat (last : UInt64 → Option Credential) (calls : List CredentialCall) (call : CredentialCall) :
    lastOf last (calls ++ [call]) = Function.update (lastOf last calls) call.site call.credential := by
  rw [lastOf, List.foldl_append]
  rfl

theorem exists_call_of_lastOf {calls : List CredentialCall} {site : UInt64} {credential : Credential}
    (h : lastOf (fun _ => none) calls site = some credential) : ∃ call ∈ calls, call.credential = some credential := by
  induction calls using List.reverseRecOn with
  | nil => cases h
  | append_singleton calls call ih =>
      rw [lastOf_concat] at h
      by_cases hSame : site = call.site
      · rw [hSame, Function.update_self] at h
        exact ⟨call, by simp, h⟩
      · rw [Function.update_of_ne hSame] at h
        obtain ⟨other, hOther, hCredential⟩ := ih h
        exact ⟨other, List.mem_append_left _ hOther, hCredential⟩

/-- In every state that the calls go through, with the calls that led to it. -/
def InEveryState (holds : List CredentialCall → MailFiles → Prop) (calls : List CredentialCall) (files : MailFiles) : Prop :=
  ∀ done rest, calls = done ++ rest → holds done (runCalls done files)

/-- The lines are those of the last calls, and a site is found by its username. -/
def KeepsEntries (calls : List CredentialCall) (files : MailFiles) (done : List CredentialCall) (state : MailFiles) : Prop :=
  Stored (calls.map CredentialCall.site) files (lastOf (fun _ => none) done) state ∧
    FoundByName (done.map CredentialCall.site) (lastOf (fun _ => none) done) state

/-- The lines are those of the last calls, and `find` gives what was applied last. -/
def BehavesAsMap (calls : List CredentialCall) (files : MailFiles) (done : List CredentialCall) (state : MailFiles) : Prop :=
  Stored (calls.map CredentialCall.site) files (lastOf (fun _ => none) done) state ∧
    Found (done.map CredentialCall.site) (lastOf (fun _ => none) done) state

theorem BehavesAsMap.keepsEntries {calls done : List CredentialCall} {files state : MailFiles}
    (h : BehavesAsMap calls files done state) : KeepsEntries calls files done state := by
  refine ⟨h.1, fun site hSite => ?_⟩
  have hFound := congrArg (Option.map Prod.fst) (h.2 site hSite)
  simpa [Function.comp_def] using hFound

/-- Before the first call, with no entries of the sites in the two files. -/
theorem tracked_start {calls : List CredentialCall} {files : MailFiles} (hContent : files .passwdPhp ≠ some .special)
    (hPasswd : ∀ call ∈ calls, ∀ line ∈ passwdLines files, isPasswdEntry call.site line = false)
    (hLogin : ∀ call ∈ calls, ∀ line ∈ loginLines files, isLoginEntry call.site line = false) :
    Tracked (calls.map CredentialCall.site) [] files (fun _ => none) files := by
  have hStart : ∀ (entry : UInt64 → Bytes → Bool) (lines : List Bytes), (∀ call ∈ calls, ∀ line ∈ lines, entry call.site line = false) →
      KeyedLines entry (calls.map CredentialCall.site) (fun _ => []) lines lines := by
    intro entry lines hNone
    refine ⟨?_, ?_⟩
    · intro site hSite
      obtain ⟨call, hCall, rfl⟩ := List.mem_map.mp hSite
      rw [List.filter_eq_nil_iff]
      intro line hLine
      rw [hNone call hCall line hLine]
      exact Bool.false_ne_true
    · rw [List.filter_eq_self]
      intro line hLine
      rw [List.all_map, List.all_eq_true]
      intro call hCall
      simp [hNone call hCall line hLine]
  exact ⟨hContent, ⟨hStart _ _ hPasswd, hStart _ _ hLogin⟩, fun _ _ hLast => absurd hLast.symm (Option.some_ne_none _),
    fun _ hSite => absurd hSite List.not_mem_nil, fun _ hLast => absurd rfl hLast⟩

/-- The two files keep the entries in every state if and only if each call meets its condition.
Then `find` gives no domain, so it is the one that was applied only where that was empty. -/
theorem behavesAsMap_iff (calls : List CredentialCall) (files : MailFiles) (hContent : files .passwdPhp ≠ some .special)
    (hPasswd : ∀ call ∈ calls, ∀ line ∈ passwdLines files, isPasswdEntry call.site line = false)
    (hLogin : ∀ call ∈ calls, ∀ line ∈ loginLines files, isLoginEntry call.site line = false) :
    (InEveryState (KeepsEntries calls files) calls files ↔ EachMeets calls files) ∧
    (InEveryState (BehavesAsMap calls files) calls files ↔
      EachMeets calls files ∧ ∀ call ∈ calls, ∀ credential ∈ call.credential, credential.domain = []) := by
  have hStart := tracked_start hContent hPasswd hLogin
  have hSites : ∀ call ∈ calls, call.site ∈ calls.map CredentialCall.site := fun call hCall => List.mem_map_of_mem hCall
  have hState : EachMeets calls files → ∀ done rest, calls = done ++ rest →
      Tracked (calls.map CredentialCall.site) (done.map CredentialCall.site) files (lastOf (fun _ => none) done) (runCalls done files) := by
    intro hMeets done rest hCalls
    refine tracked_run hStart (fun call hCall => hSites call ?_) (eachMeets_of_append (hCalls ▸ hMeets))
    rw [hCalls]
    exact List.mem_append_left _ hCall
  have hIn : ∀ {done rest : List CredentialCall}, calls = done ++ rest → ∀ site ∈ done.map CredentialCall.site,
      site ∈ calls.map CredentialCall.site := by
    rintro done rest rfl site hSite
    rw [List.map_append]
    exact List.mem_append_left _ hSite
  have hKeeps : InEveryState (KeepsEntries calls files) calls files ↔ EachMeets calls files := by
    constructor
    · intro hEvery
      exact eachMeets_of_stored hStart hSites fun done rest hCalls => (hEvery done rest hCalls).1
    · intro hMeets done rest hCalls
      have hTracked := hState hMeets done rest hCalls
      refine ⟨hTracked.stored, fun site hSite => ?_⟩
      rw [find_eq hTracked (hIn hCalls site hSite) hSite]
      cases hLast : lastOf (fun _ => none) done site with
      | none => rfl
      | some credential => rw [Option.map_some, Option.map_some, Option.map_some, hTracked.named site credential hLast]
  refine ⟨hKeeps, ?_, ?_⟩
  · intro hEvery
    have hMeets := hKeeps.mp fun done rest hCalls => (hEvery done rest hCalls).keepsEntries
    refine ⟨hMeets, fun call hCall credential hCredential => ?_⟩
    obtain ⟨done, rest, hCalls⟩ := List.append_of_mem hCall
    have hSplit : calls = (done ++ [call]) ++ rest := by rw [hCalls, List.append_assoc, List.singleton_append]
    have hSite : call.site ∈ (done ++ [call]).map CredentialCall.site := by simp
    have hFound := (hEvery _ rest hSplit).2 call.site hSite
    rw [find_eq (hState hMeets _ rest hSplit) (hIn hSplit _ hSite) hSite, lastOf_concat, Function.update_self, hCredential] at hFound
    exact (Prod.mk.inj (Option.some.inj hFound)).2.symm
  · rintro ⟨hMeets, hDomains⟩ done rest hCalls
    have hTracked := hState hMeets done rest hCalls
    refine ⟨hTracked.stored, fun site hSite => ?_⟩
    rw [find_eq hTracked (hIn hCalls site hSite) hSite]
    cases hLast : lastOf (fun _ => none) done site with
    | none => rfl
    | some credential =>
        obtain ⟨call, hCall, hCredential⟩ := exists_call_of_lastOf hLast
        have hDomain := hDomains call (by rw [hCalls]; exact List.mem_append_left _ hCall) credential hCredential
        rw [Option.map_some, Option.map_some, Option.map_some, hTracked.named site credential hLast, hDomain]

/-- Two sites whose numbers begin alike, on a panel that has no files yet. -/
def sampleCalls (domain : Bytes) : List CredentialCall :=
  [.apply 1 domain (some []) (fun _ => bytes "$6$salt$hash") {} {}, .apply 11 domain (some []) (fun _ => bytes "$6$salt$hash") {} {}]

theorem behavesAsMap_sample : InEveryState (BehavesAsMap (sampleCalls []) fun _ => none) (sampleCalls []) fun _ => none := by
  refine (behavesAsMap_iff (sampleCalls []) (fun _ => none) (by simp) (fun _ _ _ hLine => absurd hLine List.not_mem_nil)
    fun _ _ _ hLine => absurd hLine List.not_mem_nil).2.mpr ⟨⟨?_, ?_, trivial⟩, ?_⟩
  · exact ⟨List.not_mem_nil, by decide +kernel, fun _ hLine => absurd hLine List.not_mem_nil, fun _ hLine => absurd hLine List.not_mem_nil⟩
  · exact ⟨List.not_mem_nil, by decide +kernel, by decide +kernel, by decide +kernel⟩
  · intro call hCall credential hCredential
    rcases List.mem_cons.mp hCall with rfl | hCall
    · exact congrArg Credential.domain (Option.some.inj hCredential).symm
    · rw [List.mem_singleton.mp hCall] at hCredential
      exact congrArg Credential.domain (Option.some.inj hCredential).symm

/-- `find` looks for the username at the front of a line of the map, where the address is. -/
theorem find_not_domain : ¬InEveryState (BehavesAsMap (sampleCalls (bytes "example.com")) fun _ => none)
    (sampleCalls (bytes "example.com")) fun _ => none := by
  intro hEvery
  have hFound := (hEvery (sampleCalls (bytes "example.com")) [] rfl).2 1 (by decide)
  exact absurd hFound (by decide +kernel)

end ContainerCP.Mail
