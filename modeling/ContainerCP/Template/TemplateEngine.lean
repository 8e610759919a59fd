import Mathlib.Data.List.Infix
import Mathlib.Data.List.Nodup
import ContainerCP.Text.Placeholders

/-! `TemplateEngine`: the compose file and the web configuration of a site, made from templates by
replacing one placeholder after the other. -/
namespace ContainerCP.TemplateEngine

open Placeholders

/-! ## Compose files -/

inductive Key where
  | domain
  | owner
  | phpImage
  | siteId
  | webServerImage
  | webConfigDir
  | webLogDir
  | webDocRoot
  | webHealthCmd
  | webLocalConfig
  | webLocalLog
  | webServerCmd
  | mailNetwork
  | mailNetworkDefinition
  | phpMailVolume
  deriving DecidableEq

def Key.name : Key → Bytes
  | .domain => bytes "DOMAIN"
  | .owner => bytes "OWNER"
  | .phpImage => bytes "PHP_IMAGE"
  | .siteId => bytes "SITE_ID"
  | .webServerImage => bytes "WEB_SERVER_IMAGE"
  | .webConfigDir => bytes "WEB_CONFIG_DIR"
  | .webLogDir => bytes "WEB_LOG_DIR"
  | .webDocRoot => bytes "WEB_DOC_ROOT"
  | .webHealthCmd => bytes "WEB_HEALTH_CMD"
  | .webLocalConfig => bytes "WEB_LOCAL_CONFIG"
  | .webLocalLog => bytes "WEB_LOCAL_LOG"
  | .webServerCmd => bytes "WEB_SERVER_CMD"
  | .mailNetwork => bytes "MAIL_NETWORK"
  | .mailNetworkDefinition => bytes "MAIL_NETWORK_DEFINITION"
  | .phpMailVolume => bytes "PHP_MAIL_VOLUME"

/-- The keys in the order in which they are replaced. -/
def keys : List Key :=
  [.domain, .owner, .phpImage, .siteId, .webServerImage, .webConfigDir, .webLogDir, .webDocRoot, .webHealthCmd,
    .webLocalConfig, .webLocalLog, .webServerCmd, .mailNetwork, .mailNetworkDefinition, .phpMailVolume]

/-- The arguments of `render`. -/
structure RenderArguments where
  domain : Bytes
  owner : Bytes
  phpImage : Bytes
  siteId : Bytes
  webServerImage : Bytes
  webConfigDir : Bytes
  webLogDir : Bytes
  webDocRoot : Bytes
  webLocalConfig : Bytes
  webLocalLog : Bytes
  webServerCmd : Bytes
  mailNetwork : Bytes
  mailNetworkDefinition : Bytes
  mailVolume : Bytes

def RenderArguments.webHealthCmd (args : RenderArguments) : Bytes :=
  if bytes "httpd" <:+: args.webServerImage then bytes "httpd" else bytes "nginx"

def RenderArguments.cmdLine (args : RenderArguments) : Bytes :=
  if args.webServerCmd = [] then [] else bytes "    command: " ++ args.webServerCmd ++ bytes "\n"

def RenderArguments.value (args : RenderArguments) : Key → Bytes
  | .domain => args.domain
  | .owner => args.owner
  | .phpImage => args.phpImage
  | .siteId => args.siteId
  | .webServerImage => args.webServerImage
  | .webConfigDir => args.webConfigDir
  | .webLogDir => args.webLogDir
  | .webDocRoot => args.webDocRoot
  | .webHealthCmd => args.webHealthCmd
  | .webLocalConfig => args.webLocalConfig
  | .webLocalLog => args.webLocalLog
  | .webServerCmd => args.cmdLine
  | .mailNetwork => args.mailNetwork
  | .mailNetworkDefinition => args.mailNetworkDefinition
  | .phpMailVolume => args.mailVolume

/-- `TemplateEngine::render`. -/
def render (template : Bytes) (args : RenderArguments) : Bytes := replaceEach Key.name args.value keys template

/-! ## Web configurations -/

inductive WebKey where
  | domain
  | publicRoot
  | phpUpstream
  | logRoot
  | sslEnabled
  deriving DecidableEq

def WebKey.name : WebKey → Bytes
  | .domain => bytes "DOMAIN"
  | .publicRoot => bytes "PUBLIC_ROOT"
  | .phpUpstream => bytes "PHP_UPSTREAM"
  | .logRoot => bytes "LOG_ROOT"
  | .sslEnabled => bytes "SSL_ENABLED"

def webKeys : List WebKey := [.domain, .publicRoot, .phpUpstream, .logRoot, .sslEnabled]

/-- The arguments of `render_web`. -/
structure WebArguments where
  domain : Bytes
  publicRoot : Bytes
  phpUpstream : Bytes
  logRoot : Bytes
  sslEnabled : Bool

def WebArguments.value (args : WebArguments) : WebKey → Bytes
  | .domain => args.domain
  | .publicRoot => args.publicRoot
  | .phpUpstream => args.phpUpstream
  | .logRoot => args.logRoot
  | .sslEnabled => if args.sslEnabled then bytes "true" else bytes "false"

/-- `TemplateEngine::render_web`. -/
def renderWeb (template : Bytes) (args : WebArguments) : Bytes := replaceEach WebKey.name args.value webKeys template

/-! ## All values at once -/

theorem mem_keys (key : Key) : key ∈ keys := by
  cases key <;> decide

theorem keyNames : KeyNames Key.name where
  isName := by
    intro key
    have hAll : ∀ key ∈ keys, openBrace ∉ key.name ∧ closeBrace ∉ key.name := by decide
    exact hAll key (mem_keys key)
  injective := by
    have hNodup : (keys.map Key.name).Nodup := by decide
    exact fun key other hName => List.inj_on_of_nodup_map hNodup (mem_keys key) (mem_keys other) hName

theorem mem_webKeys (key : WebKey) : key ∈ webKeys := by
  cases key <;> decide

theorem webKeyNames : KeyNames WebKey.name where
  isName := by
    intro key
    have hAll : ∀ key ∈ webKeys, openBrace ∉ key.name ∧ closeBrace ∉ key.name := by decide
    exact hAll key (mem_webKeys key)
  injective := by
    have hNodup : (webKeys.map WebKey.name).Nodup := by decide
    exact fun key other hName => List.inj_on_of_nodup_map hNodup (mem_webKeys key) (mem_webKeys other) hName

/-- A text that is made from a template is the template with the values in all places at once: no
value is taken for a placeholder, and nothing is replaced twice. -/
theorem render_at_once {template : List (Piece Key)} {webTemplate : List (Piece WebKey)} {args : RenderArguments}
    {webArgs : WebArguments} (hTemplate : ∀ piece ∈ template, piece.Plain)
    (hWebTemplate : ∀ piece ∈ webTemplate, piece.Plain) (hArgs : ∀ key, Plain (args.value key))
    (hWebArgs : ∀ key, Plain (webArgs.value key)) :
    render (printPieces Key.name template) args = template.flatMap (Piece.meaning args.value) ∧
      renderWeb (printPieces WebKey.name webTemplate) webArgs = webTemplate.flatMap (Piece.meaning webArgs.value) :=
  ⟨replaceEach_eq_meaning keyNames hArgs mem_keys hTemplate,
    replaceEach_eq_meaning webKeyNames hWebArgs mem_webKeys hWebTemplate⟩

section Sample

def sampleTemplate : List (Piece Key) :=
  [.text (bytes "image: "), .hole .webServerImage, .text (bytes "\n"), .hole .webServerCmd, .hole .domain]

def sampleArguments : RenderArguments where
  domain := bytes "example.org"
  owner := bytes "bob"
  phpImage := bytes "php:8.3"
  siteId := bytes "7"
  webServerImage := bytes "httpd:2.4"
  webConfigDir := bytes "/etc/httpd"
  webLogDir := bytes "/var/log/httpd"
  webDocRoot := bytes "/var/www"
  webLocalConfig := bytes "config/httpd"
  webLocalLog := bytes "logs"
  webServerCmd := bytes "httpd-foreground"
  mailNetwork := []
  mailNetworkDefinition := []
  mailVolume := []

def sampleWebTemplate : List (Piece WebKey) := [.text (bytes "server_name "), .hole .domain, .text (bytes ";")]

def sampleWebArguments : WebArguments where
  domain := bytes "example.org"
  publicRoot := bytes "/var/www"
  phpUpstream := bytes "php:9000"
  logRoot := bytes "/var/log"
  sslEnabled := true

theorem render_sample :
    render (printPieces Key.name sampleTemplate) sampleArguments =
        bytes "image: httpd:2.4\n    command: httpd-foreground\nexample.org" ∧
      renderWeb (printPieces WebKey.name sampleWebTemplate) sampleWebArguments = bytes "server_name example.org;" := by
  have hTemplate : ∀ piece ∈ sampleTemplate, piece.Plain := by
    simp only [sampleTemplate, List.forall_mem_cons, Piece.Plain, List.not_mem_nil, false_implies, implies_true, and_true,
      true_and]
    exact ⟨plain_of_notMem (by decide), plain_of_notMem (by decide)⟩
  have hWebTemplate : ∀ piece ∈ sampleWebTemplate, piece.Plain := by
    simp only [sampleWebTemplate, List.forall_mem_cons, Piece.Plain, List.not_mem_nil, false_implies, implies_true,
      and_true, true_and]
    exact ⟨plain_of_notMem (by decide), plain_of_notMem (by decide)⟩
  have hArgs : ∀ key, Plain (sampleArguments.value key) := by
    intro key
    cases key <;> exact plain_of_notMem (by decide +kernel)
  have hWebArgs : ∀ key, Plain (sampleWebArguments.value key) := by
    intro key
    cases key <;> exact plain_of_notMem (by decide)
  obtain ⟨hRender, hWeb⟩ := render_at_once hTemplate hWebTemplate hArgs hWebArgs
  rw [hRender, hWeb]
  constructor
  · decide +kernel
  · decide +kernel

end Sample

end ContainerCP.TemplateEngine
