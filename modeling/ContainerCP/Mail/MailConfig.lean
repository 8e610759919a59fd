import ContainerCP.Text.Decimal
import ContainerCP.Text.LineSearch

/-! The files that `DockerMailProvider` generates: the maps of Postfix and Dovecot from the
lists of domains, mailboxes and aliases, and the texts around them. -/
namespace ContainerCP.Mail

inductive MailDomainMode where
  | disabled
  | localPrimary
  | externalRelay
  | splitM365
  deriving DecidableEq

structure MailDomain where
  id : UInt64 := 0
  domainName : Bytes
  mode : MailDomainMode := .disabled
  relayHost : Bytes := []
  dkimSelector : Bytes := bytes "dkim"
  enabled : Bool := true
  deriving DecidableEq

structure Mailbox where
  domainId : UInt64 := 0
  localPart : Bytes
  passwordHash : Bytes
  enabled : Bool := true
  deriving DecidableEq

structure MailAlias where
  domainId : UInt64 := 0
  sourceLocalPart : Bytes
  destination : Bytes
  enabled : Bool := true
  deriving DecidableEq

/-- What the provider is constructed with and told of the smarthost. -/
structure Provider where
  dataRoot : Bytes
  smarthostHost : Bytes := []
  smarthostPort : Int := 0
  smarthostUser : Bytes := []
  smarthostPass : Bytes := []
  deriving DecidableEq

def atSign : Bytes := bytes "@"

/-- Lines of a text, each with its newline. -/
def textOf (lines : List String) : Bytes := unlines (lines.map bytes)

/-- The line of all generated files, with its dash in UTF-8. -/
def doNotEdit : Bytes := bytes "# Do not edit manually " ++ [0xE2, 0x80, 0x94] ++ bytes " changes will be overwritten.\n"

/-! ## Domains -/

/-- The record of a domain id: the first one in the list. -/
def domainOf (domains : List MailDomain) (domainId : UInt64) : Option MailDomain := domains.find? fun d => d.id = domainId

/-- Its name; nothing where there is no record. -/
def domainNameOf (domains : List MailDomain) (domainId : UInt64) : Bytes :=
  ((domainOf domains domainId).map MailDomain.domainName).getD []

def relayDomains (domains : List MailDomain) : List Bytes :=
  (domains.filter fun d => (d.mode = .externalRelay || d.mode = .splitM365) && d.enabled).map MailDomain.domainName

def virtualMailboxDomains (domains : List MailDomain) : List Bytes :=
  (domains.filter fun d => (d.mode = .localPrimary || d.mode = .splitM365) && d.enabled).map MailDomain.domainName

/-! ## The maps -/

/-- An address in a map, with what stands in the map for it. -/
structure MapEntry where
  localPart : Bytes
  domain : Bytes
  value : Bytes := []
  deriving DecidableEq

def MapEntry.address (entry : MapEntry) : Bytes := entry.localPart ++ atSign ++ entry.domain

/-- `virtual_mailboxes`. -/
def virtualMailboxEntries (domains : List MailDomain) (mailboxes : List Mailbox) : List MapEntry :=
  mailboxes.filterMap fun mb =>
    let domain := domainNameOf domains mb.domainId
    if domain = [] then none else some ⟨mb.localPart, domain, []⟩

def virtualMailboxesText (domains : List MailDomain) (mailboxes : List Mailbox) : Bytes :=
  bytes "# ContainerCP virtual mailbox map\n" ++
    unlines ((virtualMailboxEntries domains mailboxes).map fun entry =>
      entry.address ++ bytes " " ++ entry.domain ++ bytes "/" ++ entry.localPart ++ bytes "/")

/-- `virtual_aliases`. -/
def virtualAliasEntries (domains : List MailDomain) (aliases : List MailAlias) : List MapEntry :=
  aliases.filterMap fun a =>
    let domain := domainNameOf domains a.domainId
    if domain = [] || !a.enabled then none else some ⟨a.sourceLocalPart, domain, a.destination⟩

def virtualAliasesText (domains : List MailDomain) (aliases : List MailAlias) : Bytes :=
  bytes "# ContainerCP virtual alias map\n" ++
    unlines ((virtualAliasEntries domains aliases).map fun entry => entry.address ++ bytes "\t" ++ entry.value)

/-- The password file of Dovecot. -/
def passwdEntries (domains : List MailDomain) (mailboxes : List Mailbox) : List MapEntry :=
  mailboxes.filterMap fun mb =>
    let domain := domainNameOf domains mb.domainId
    if domain = [] || !mb.enabled then none else some ⟨mb.localPart, domain, mb.passwordHash⟩

def passwdText (domains : List MailDomain) (mailboxes : List Mailbox) : Bytes :=
  unlines ((passwdEntries domains mailboxes).map fun entry =>
    entry.address ++ bytes ":" ++ entry.value ++ bytes ":1000:1000::/var/mail/" ++ entry.domain ++ bytes "/" ++ entry.localPart ++
      bytes "/::")

/-- A line of `transport_maps`: an address or a domain, and where its mail goes. -/
structure TransportEntry where
  key : Bytes
  target : Bytes
  deriving DecidableEq

def lmtpTarget : Bytes := bytes "lmtp:containercp-mail-dovecot:24"

/-- The lines of one domain. -/
def transportLines (mailboxes : List Mailbox) (d : MailDomain) : List TransportEntry :=
  if !d.enabled then []
  else
    match d.mode with
    | .localPrimary => [⟨d.domainName, lmtpTarget⟩]
    | .splitM365 =>
        if d.relayHost = [] then []
        else
          (mailboxes.filter fun mb => mb.domainId = d.id && mb.enabled).map
              (fun mb => ⟨mb.localPart ++ atSign ++ d.domainName, lmtpTarget⟩) ++
            [⟨d.domainName, bytes "smtp:[" ++ d.relayHost ++ bytes "]:25"⟩]
    | .externalRelay => if d.relayHost = [] then [] else [⟨d.domainName, bytes "smtp:[" ++ d.relayHost ++ bytes "]"⟩]
    | .disabled => []

def transportEntries (domains : List MailDomain) (mailboxes : List Mailbox) : List TransportEntry :=
  domains.flatMap (transportLines mailboxes)

def transportMapsText (domains : List MailDomain) (mailboxes : List Mailbox) : Bytes :=
  unlines ((transportEntries domains mailboxes).map fun entry => entry.key ++ bytes " " ++ entry.target)

/-! ## Postfix -/

def relayhostText (provider : Provider) : Bytes :=
  if provider.smarthostHost ≠ [] && 0 < provider.smarthostPort then
    bytes "relayhost = [" ++ provider.smarthostHost ++ bytes "]:" ++ decimalInt provider.smarthostPort ++ bytes "\n" ++
      (if provider.smarthostUser ≠ [] then
        textOf ["smtp_sasl_auth_enable = yes", "smtp_sasl_password_maps = texthash:/etc/postfix/sasl_passwd",
          "smtp_sasl_security_options = noanonymous", "smtp_tls_security_level = encrypt",
          "smtp_tls_CApath = /etc/ssl/certs"]
      else [])
  else []

/-- A list of names behind a setting. -/
def namesText (names : List Bytes) : Bytes := (bytes ", ").intercalate names

def postfixMainText (provider : Provider) (domains : List MailDomain) : Bytes :=
  bytes "# ContainerCP generated configuration\n" ++ doNotEdit ++
    textOf ["", "myhostname = mail.local", "mydomain = local", "myorigin = $mydomain", "inet_interfaces = all",
      "inet_protocols = ipv4", "mydestination = localhost",
      "mynetworks = 127.0.0.0/8, 192.168.0.0/16, 172.16.0.0/12, 10.0.0.0/8", "maillog_file = /var/log/postfix/maillog",
      "compatibility_level = 3.6", "smtp_address_preference = ipv4",
      "smtpd_relay_restrictions = permit_mynetworks, permit_sasl_authenticated, reject_unauth_destination",
      "smtp_host_lookup = dns", "smtp_dns_support_level = enabled",
      "smtpd_tls_cert_file = /srv/containercp/ssl/0/fullchain.pem",
      "smtpd_tls_key_file = /srv/containercp/ssl/0/privkey.pem", "smtpd_tls_security_level = may",
      "smtpd_tls_loglevel = 1", "smtp_tls_security_level = may", "smtpd_sasl_auth_enable = yes",
      "smtpd_sasl_type = dovecot", "smtpd_sasl_path = inet:containercp-mail-dovecot:12345",
      "smtpd_sasl_security_options = noanonymous", "broken_sasl_auth_clients = yes",
      "smtpd_sender_login_maps = texthash:/etc/postfix/sender_login", "smtpd_client_connection_rate_limit = 30",
      "smtpd_client_message_rate_limit = 100", "smtpd_client_recipient_rate_limit = 50", "milter_protocol = 6",
      "milter_default_action = accept", "smtpd_milters = inet:containercp-mail-rspamd:11332",
      "non_smtpd_milters = inet:containercp-mail-rspamd:11332", "transport_maps = texthash:/etc/postfix/transport_maps",
      "virtual_alias_maps = texthash:/etc/postfix/virtual_aliases"] ++
    relayhostText provider ++
    (if relayDomains domains = [] then [] else bytes "relay_domains = " ++ namesText (relayDomains domains) ++ bytes "\n") ++
    bytes "virtual_mailbox_domains = " ++ namesText (virtualMailboxDomains domains) ++ bytes "\n" ++
    textOf ["virtual_mailbox_maps = texthash:/etc/postfix/virtual_mailboxes",
      "virtual_transport = lmtp:containercp-mail-dovecot:24"]

def saslPasswdText (provider : Provider) : Bytes :=
  if provider.smarthostUser ≠ [] then
    bytes "[" ++ provider.smarthostHost ++ bytes "]:" ++ decimalInt provider.smarthostPort ++ bytes "\t" ++
      provider.smarthostUser ++ bytes ":" ++ provider.smarthostPass ++ bytes "\n"
  else bytes "# ContainerCP SASL password file (empty)\n"

def postfixResolvText : Bytes :=
  textOf ["# ContainerCP Postfix DNS resolver configuration", "nameserver 8.8.8.8", "nameserver 8.8.4.4", "options ndots:0"]

/-! ## Dovecot -/

def dovecotText : Bytes :=
  bytes "# ContainerCP generated configuration\n" ++ doNotEdit ++
    textOf ["", "mail_location = maildir:/var/mail/%d/%n", "ssl = yes", "ssl_cert = </srv/containercp/ssl/0/fullchain.pem",
      "ssl_key = </srv/containercp/ssl/0/privkey.pem", "ssl_min_protocol = TLSv1.2", "passdb \x7b",
      "  driver = passwd-file", "  args = /etc/dovecot/passwd", "\x7d", "passdb \x7b", "  driver = passwd-file",
      "  args = /etc/dovecot/passwd-php", "  mechanisms = plain login", "\x7d", "userdb \x7b", "  driver = static",
      "  args = uid=1000 gid=1000 home=/var/mail/%d/%n", "\x7d", "protocols = imap pop3 lmtp", "namespace inbox \x7b",
      "  inbox = yes", "  mailbox Drafts \x7b", "    auto = subscribe", "  \x7d", "  mailbox Junk \x7b",
      "    auto = subscribe", "  \x7d", "  mailbox Trash \x7b", "    auto = subscribe", "  \x7d", "  mailbox Sent \x7b",
      "    auto = subscribe", "  \x7d", "  mailbox Archive \x7b", "    auto = subscribe", "  \x7d", "\x7d",
      "service lmtp \x7b", "  inet_listener lmtp \x7b", "    address = 0.0.0.0", "    port = 24", "  \x7d", "\x7d",
      "service auth \x7b", "  unix_listener auth-userdb \x7b", "    mode = 0660", "  \x7d", "  inet_listener \x7b",
      "    address = 0.0.0.0", "    port = 12345", "  \x7d", "\x7d"]

def phpCredentialsHeader : Bytes := bytes "# ContainerCP PHP SMTP credentials\n"

def senderLoginHeader : Bytes := bytes "# ContainerCP sender_login map\n"

/-! ## Rspamd -/

/-- What Docker says of the mail network, without the blanks at its end. -/
def mailSubnet (answer : Option Bytes) : Bytes :=
  ((answer.getD []).rdropWhile fun c => c = newline || c = ascii '\r' || c = ascii ' ')

/-- The section of a domain whose key is there. -/
def signingSection (d : MailDomain) : Bytes :=
  bytes "  " ++ d.domainName ++ bytes " \x7b\n    path = \"/etc/rspamd/keys/" ++ d.domainName ++ bytes "/" ++ d.dkimSelector ++
    bytes ".private\";\n    selector = \"" ++ d.dkimSelector ++ bytes "\";\n  \x7d\n"

/-- `dkim_signing.conf`; `hasKey` is what `test -f` says of the key of a domain. -/
def dkimSigningText (subnet : Option Bytes) (hasKey : MailDomain → Bool) (domains : List MailDomain) : Bytes :=
  bytes "# ContainerCP generated Rspamd DKIM signing configuration\n" ++ doNotEdit ++
    textOf ["", "sign_authenticated = true;", "sign_local = true;", "allow_hdrfrom_mismatch = false;",
      "allow_username_mismatch = true;", "use_domain = \"header\";", "use_redis = false;", "try_fallback = false;",
      "use_esld = false;", "selector = \"dkim\";", "path = \"/etc/rspamd/keys/\";"] ++
    (if mailSubnet subnet = [] then [] else bytes "sign_networks = [\"" ++ mailSubnet subnet ++ bytes "\"];\n") ++
    bytes "\ndomain \x7b\n" ++
    ((domains.filter fun d => d.enabled && d.mode ≠ .disabled && hasKey d).flatMap signingSection) ++ bytes "\x7d\n"

def rspamdLoggingText : Bytes := textOf ["# ContainerCP generated Rspamd logging override", "type = \"console\";"]

def rspamdWorkerProxyText : Bytes :=
  textOf ["# ContainerCP generated Rspamd proxy worker override",
    "# Bind to all interfaces for milter connections from Postfix", "", "bind_socket = \"0.0.0.0:11332\";", "milter = true;",
    "upstream \"local\" \x7b", "  default = yes;", "  hosts = \"localhost\";", "\x7d"]

def rspamdWorkerNormalText : Bytes :=
  textOf ["# ContainerCP generated Rspamd normal worker override", "", "# Note: bind_socket is intentionally NOT set here.",
    "# The base config already binds normal to localhost:11333.",
    "# Changing it (e.g. to port 11334) conflicts with the controller.", "type = \"normal\";"]

end ContainerCP.Mail
