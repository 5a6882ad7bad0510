import ScopedConf.Directive.Slot
import ScopedConf.Module.Basic
import ScopedConf.Server.Listener
import ScopedConf.Text.Lowercase
import ScopedConf.Value.Json

/-! The settings of web servers. One record serves three levels: the whole of `http`, a server, and
a location, which may hold further locations. -/

namespace ScopedConf.Server

def httpTag : ModuleTag := ⟨0x48, 0x54, 0x54, 0x50⟩

namespace Level

def http : ContextSet := .single 1
def server : ContextSet := .single 2
def location : ContextSet := .single 3
def types : ContextSet := .single 4

def all : ContextSet := http ||| server ||| location

end Level

structure Http where
  listen : Setting (List Listener) := .unset
  serverName : Setting (List String) := .unset
  root : Setting String := .unset
  sendfile : Setting Bool := .unset
  keepaliveTimeout : Setting Duration := .unset
  clientBodyTimeout : Setting Duration := .unset
  clientMaxBodySize : Setting Nat := .unset
  clientBodyBuffers : Setting Buffers := .unset
  gzipTypes : Setting (List String) := .unset
  sslProtocols : Setting UInt32 := .unset
  serverTokens : Setting UInt32 := .unset
  defaultType : Setting String := .unset
  /-- Media types under the file extensions they are served for. -/
  types : Setting (Named String) := .unset
  deriving DecidableEq

namespace Http

def tls1_0 : UInt32 := 2
def tls1_1 : UInt32 := 4
def tls1_2 : UInt32 := 8
def tls1_3 : UInt32 := 16

def protocolNames : Slot.Names :=
  [("TLSv1", tls1_0), ("TLSv1.1", tls1_1), ("TLSv1.2", tls1_2), ("TLSv1.3", tls1_3)]

def tokenNames : Slot.Names := [("off", 0), ("on", 1), ("build", 2)]

def defaultTypes : Named String :=
  .ofList [("html", "text/html"), ("gif", "image/gif"), ("jpg", "image/jpeg")]

def listenField : Field Http (List Listener) :=
  .ofProjection listen (fun h s => { h with listen := s }) (fun _ _ => rfl) (fun _ => rfl)
    fun _ _ _ => rfl

def serverNameField : Field Http (List String) :=
  .ofProjection serverName (fun h s => { h with serverName := s }) (fun _ _ => rfl) (fun _ => rfl)
    fun _ _ _ => rfl

def rootField : Field Http String :=
  .ofProjection root (fun h s => { h with root := s }) (fun _ _ => rfl) (fun _ => rfl)
    fun _ _ _ => rfl

def sendfileField : Field Http Bool :=
  .ofProjection sendfile (fun h s => { h with sendfile := s }) (fun _ _ => rfl) (fun _ => rfl)
    fun _ _ _ => rfl

def keepaliveTimeoutField : Field Http Duration :=
  .ofProjection keepaliveTimeout (fun h s => { h with keepaliveTimeout := s }) (fun _ _ => rfl)
    (fun _ => rfl) fun _ _ _ => rfl

def clientBodyTimeoutField : Field Http Duration :=
  .ofProjection clientBodyTimeout (fun h s => { h with clientBodyTimeout := s }) (fun _ _ => rfl)
    (fun _ => rfl) fun _ _ _ => rfl

def clientMaxBodySizeField : Field Http Nat :=
  .ofProjection clientMaxBodySize (fun h s => { h with clientMaxBodySize := s }) (fun _ _ => rfl)
    (fun _ => rfl) fun _ _ _ => rfl

def clientBodyBuffersField : Field Http Buffers :=
  .ofProjection clientBodyBuffers (fun h s => { h with clientBodyBuffers := s }) (fun _ _ => rfl)
    (fun _ => rfl) fun _ _ _ => rfl

def gzipTypesField : Field Http (List String) :=
  .ofProjection gzipTypes (fun h s => { h with gzipTypes := s }) (fun _ _ => rfl) (fun _ => rfl)
    fun _ _ _ => rfl

def sslProtocolsField : Field Http UInt32 :=
  .ofProjection sslProtocols (fun h s => { h with sslProtocols := s }) (fun _ _ => rfl)
    (fun _ => rfl) fun _ _ _ => rfl

def serverTokensField : Field Http UInt32 :=
  .ofProjection serverTokens (fun h s => { h with serverTokens := s }) (fun _ _ => rfl)
    (fun _ => rfl) fun _ _ _ => rfl

def defaultTypeField : Field Http String :=
  .ofProjection defaultType (fun h s => { h with defaultType := s }) (fun _ _ => rfl)
    (fun _ => rfl) fun _ _ _ => rfl

def typesField : Field Http (Named String) :=
  .ofProjection types (fun h s => { h with types := s }) (fun _ _ => rfl) (fun _ => rfl)
    fun _ _ _ => rfl

instance : Record Http where
  merge h parent :=
    { listen := h.listen.merge (parent.map listen) [.usual]
      serverName := h.serverName.merge (parent.map serverName) []
      root := h.root.merge (parent.map root) "html"
      sendfile := h.sendfile.merge (parent.map sendfile) false
      keepaliveTimeout := h.keepaliveTimeout.merge (parent.map keepaliveTimeout) (.ofSeconds 75)
      clientBodyTimeout := h.clientBodyTimeout.merge (parent.map clientBodyTimeout) (.ofSeconds 60)
      clientMaxBodySize := h.clientMaxBodySize.merge (parent.map clientMaxBodySize) (1024 * 1024)
      clientBodyBuffers := h.clientBodyBuffers.merge (parent.map clientBodyBuffers) ⟨4, 8192⟩
      gzipTypes := h.gzipTypes.merge (parent.map gzipTypes) ["text/html"]
      sslProtocols := h.sslProtocols.merge (parent.map sslProtocols) (tls1_2 ||| tls1_3)
      serverTokens := h.serverTokens.merge (parent.map serverTokens) 1
      defaultType := h.defaultType.merge (parent.map defaultType) "text/plain"
      types := h.types.merge (parent.map types) defaultTypes }
  toJson h :=
    .ok (Json.object
      [("listen", h.listen.toJson fun ls => .arr (ls.map Listener.toJson)),
        ("server_name", h.serverName.toJson Json.strings), ("root", h.root.toJson .str),
        ("sendfile", h.sendfile.toJson .bool),
        ("keepalive_timeout", h.keepaliveTimeout.toJson Duration.toJson),
        ("client_body_timeout", h.clientBodyTimeout.toJson Duration.toJson),
        ("client_max_body_size", h.clientMaxBodySize.toJson Json.ofNat),
        ("client_body_buffers", h.clientBodyBuffers.toJson Buffers.toJson),
        ("gzip_types", h.gzipTypes.toJson Json.strings),
        ("ssl_protocols", h.sslProtocols.toJson fun bits => .ofNat bits.toNat),
        ("server_tokens", h.serverTokens.toJson fun n => .ofNat n.toNat),
        ("default_type", h.defaultType.toJson .str),
        ("types", h.types.toJson fun ts => .object (ts.map fun (name, type) => (name, .str type)))])

variable {ρ : Type}

/-- Adds one listener to the record. -/
def setListen (k : Kind ρ Http) : Setter ρ :=
  fun args r =>
    match k.view? r with
    | none => .error .wrongRecord
    | some h => do
      let (address, port) ← Listener.readEndpoint (← args.require 0)
      let isDefault ← Listener.readMark args.words[1]?
      let listener : Listener := ⟨address, port, isDefault⟩
      let listeners := h.listen.valueOr [] ++ [listener]
      return (.text listener.endpoint, k.wrap { h with listen := .of listeners })

/-- Each statement of the block names a media type and the extensions it stands for. The first of
them puts an empty table in place of the default. -/
def readTypes (k : Kind ρ Http) : Strategy ρ :=
  fun s r =>
    match k.view? r with
    | none => .error .wrongRecord
    | some h =>
      if s.values.isEmpty then .error (.invalid s.name "no file extensions given")
      else
        let table := s.values.foldl
          (fun table t => table.insert (Text.toLower t.value) s.name) (h.types.valueOr [])
        .ok (k.wrap { h with types := .of table })

def directives (k : Kind ρ Http) : List (Directive ρ) :=
  [.blockOnly "server" Level.http ⟨Level.server, httpTag, none⟩,
    (Directive.plain "location" (.exactly 1 ||| .exactly 2)
      (Level.server ||| Level.location)).opening ⟨Level.location, httpTag, none⟩,
    .blockOnly "types" Level.all ⟨Level.types, httpTag, some (readTypes k)⟩,
    .setting "listen" (.exactly 1 ||| .exactly 2) Level.server (setListen k),
    .setting "server_name" .oneOrMore Level.server (Slot.list (serverNameField.within k)),
    .setting "root" (.exactly 1) Level.all (Slot.text (rootField.within k)),
    .setting "sendfile" .flag Level.all (Slot.flag (sendfileField.within k)),
    (Directive.setting "keepalive_timeout" (.exactly 1) Level.all
      (Slot.duration .second (keepaliveTimeoutField.within k))).checked
        (Check.durations (.ofSeconds 0) (.ofSeconds 3600)),
    .setting "client_body_timeout" (.exactly 1) Level.all
      (Slot.duration .milli (clientBodyTimeoutField.within k)),
    .setting "client_max_body_size" (.exactly 1) Level.all
      (Slot.size (clientMaxBodySizeField.within k)),
    .setting "client_body_buffers" (.exactly 2) Level.all
      (Slot.buffers (clientBodyBuffersField.within k)),
    .setting "gzip_types" .oneOrMore Level.all (Slot.list (gzipTypesField.within k)),
    .setting "ssl_protocols" .oneOrMore Level.all
      (Slot.mask protocolNames (sslProtocolsField.within k)),
    .setting "server_tokens" (.exactly 1) Level.all
      (Slot.choice tokenNames (serverTokensField.within k)),
    .setting "default_type" (.exactly 1) Level.all (Slot.text (defaultTypeField.within k))]

/-- The listeners of default servers in an `http` context, in order. -/
def defaultListeners (k : Kind ρ Http) (http : Context ρ) : List Listener :=
  (http.childrenNamed "server").flatMap fun server =>
    match server.record? k with
    | some h => (h.listen.valueOr []).filter Listener.isDefault
    | none => []

/-- The first element that occurs in front of itself, or in `seen`. -/
def firstRepeated? {α : Type} [DecidableEq α] (seen : List α) : List α → Option α
  | [] => none
  | a :: as => if a ∈ seen then some a else firstRepeated? (a :: seen) as

/-- Within an `http` context, an address and port have one default server at most. -/
def checkDefaults (k : Kind ρ Http) (http : Context ρ) : Hook :=
  match firstRepeated? [] ((defaultListeners k http).map fun l => (l.address, l.port)) with
  | some (address, port) => ([], .error s!"a duplicate default server for {address}:{port}")
  | none =>
    ([⟨.debug, .http, "HTTP context initialized",
        [("servers", .number (http.childrenNamed "server").length)]⟩],
      .ok ())

def module (k : Kind ρ Http) : Module ρ where
  name := "http_core"
  tag := httpTag
  directives := directives k
  create context := if Level.all.includes context then some (k.wrap {}) else none
  init := Hook.pass
  initContext root := Hook.sequence ((root.childrenNamed "http").map (checkDefaults k))

def blockModule : Module ρ :=
  .ofDirectives "http" .core
    [(Directive.plain "http" (.noArguments ||| .once) .main).opening ⟨Level.http, httpTag, none⟩]

end Http

end ScopedConf.Server
