import ScopedConf.Proofs.Items
import ScopedConf.Proofs.Server.Reference
import ScopedConf.Proofs.Slots

/-! What a configuration of the web server means. The value of a field in a context depends on the
directives that stand directly in it and, if there are none, on those of the contexts around it. -/

namespace ScopedConf.Server

variable {α ε : Type}

/-- The directives of this name that stand directly among the items. -/
def directivesNamed (name : String) (body : List Item) : List Statement :=
  body.filterMap fun
    | .directive s _ => if s.name = name then some s else none
    | .block .. => none

def typeLines (body : List Item) : List Statement :=
  body.flatMap fun
    | .directive .. => []
    | .block opening _ lines _ _ => if opening.name = "types" then Item.flattenAll lines else []

/-- What the last of the statements says. -/
def last (read : Statement → Option α) (ss : List Statement) : Option α :=
  ss.getLast?.bind read

/-- What the statements say together, if there are any. -/
def together (combine : List Statement → α) (ss : List Statement) : Option α :=
  if ss = [] then none else some (combine ss)

def word (read : String → Except ε α) (s : Statement) : Option α :=
  (read s.argument).toOption

def second? (s : Statement) : Option String :=
  s.values[1]?.map Token.value

def text (s : Statement) : Option String :=
  some s.argument

def duration (bare : Value.TimeUnit) (s : Statement) : Option Duration :=
  (word (Value.readTime bare) s).map Duration.ofMillis

def buffers (s : Statement) : Option Buffers := do
  let count ← word Slot.readCount s
  let size ← (second? s).bind fun size => (Value.readSize size).toOption
  return ⟨count, size⟩

def listener (s : Statement) : Option Listener := do
  let (address, port) ← word Listener.readEndpoint s
  let isDefault ← (Listener.readMark (second? s)).toOption
  return ⟨address, port, isDefault⟩

def words (ss : List Statement) : List String :=
  ss.flatMap fun s => s.values.map Token.value

def protocols (ss : List Statement) : UInt32 :=
  (words ss).foldl (fun bits name => bits ||| (Http.protocolNames.lookup name).getD 0) 0

/-- The media types under the extensions of their lines; of two lines with one extension the later
one counts. -/
def typeTable (ss : List Statement) : Named String :=
  .ofList (ss.flatMap fun s => s.values.map fun t => (Text.toLower t.value, s.name))

/-- The fields that the directives of one context set. -/
def ownSettings (body : List Item) : Http where
  listen := ⟨together (·.filterMap listener) (directivesNamed "listen" body)⟩
  serverName := ⟨together words (directivesNamed "server_name" body)⟩
  root := ⟨last text (directivesNamed "root" body)⟩
  sendfile := ⟨last (word Value.readFlag) (directivesNamed "sendfile" body)⟩
  keepaliveTimeout := ⟨last (duration .second) (directivesNamed "keepalive_timeout" body)⟩
  clientBodyTimeout := ⟨last (duration .milli) (directivesNamed "client_body_timeout" body)⟩
  clientMaxBodySize := ⟨last (word Value.readSize) (directivesNamed "client_max_body_size" body)⟩
  clientBodyBuffers := ⟨last buffers (directivesNamed "client_body_buffers" body)⟩
  gzipTypes := ⟨together words (directivesNamed "gzip_types" body)⟩
  sslProtocols := ⟨together protocols (directivesNamed "ssl_protocols" body)⟩
  serverTokens := ⟨last (Http.tokenNames.lookup ·.argument) (directivesNamed "server_tokens" body)⟩
  defaultType := ⟨last text (directivesNamed "default_type" body)⟩
  types := ⟨together typeTable (typeLines body)⟩

/-- The value of a field in the innermost of the bodies that set it, or the default. -/
def inForce (field : Http → Setting α) (default : α) (bodies : List (List Item)) : Setting α :=
  .of ((bodies.findSome? fun body => (field (ownSettings body)).value?).getD default)

/-- The settings of a context, given its body and those around it, the innermost in front. -/
def settingsIn (bodies : List (List Item)) : Http where
  listen := inForce Http.listen [.usual] bodies
  serverName := inForce Http.serverName [] bodies
  root := inForce Http.root "html" bodies
  sendfile := inForce Http.sendfile false bodies
  keepaliveTimeout := inForce Http.keepaliveTimeout (.ofSeconds 75) bodies
  clientBodyTimeout := inForce Http.clientBodyTimeout (.ofSeconds 60) bodies
  clientMaxBodySize := inForce Http.clientMaxBodySize (1024 * 1024) bodies
  clientBodyBuffers := inForce Http.clientBodyBuffers ⟨4, 8192⟩ bodies
  gzipTypes := inForce Http.gzipTypes ["text/html"] bodies
  sslProtocols := inForce Http.sslProtocols (Http.tls1_2 ||| Http.tls1_3) bodies
  serverTokens := inForce Http.serverTokens 1 bodies
  defaultType := inForce Http.defaultType "text/plain" bodies
  types := inForce Http.types Http.defaultTypes bodies

def levelOf (name : String) : ContextSet :=
  if name = "http" then Level.http else if name = "server" then Level.server else Level.location

/-- The records of a context: one, of the module that serves the web. -/
def records (h : Http) : List (Held Settings) :=
  [⟨⟨3, 0, httpTag⟩, "http_core", .http h⟩]

mutual

/-- The context of a block, with `settings` of its body and those around it; a block of media types
has none. -/
def contextOf (settings : List (List Item) → Http) (outer : List (List Item)) :
    Item → List (Context Settings)
  | .directive .. => []
  | .block opening _ body _ _ =>
    if opening.name = "types" then []
    else
      [.node (levelOf opening.name) opening.words (some opening.location)
        (records (settings (body :: outer))) (contextsOf settings (body :: outer) body)]

def contextsOf (settings : List (List Item) → Http) (outer : List (List Item)) :
    List Item → List (Context Settings)
  | [] => []
  | i :: items => contextOf settings outer i ++ contextsOf settings outer items

end

variable {s : Statement} {ss : List Statement} {body : List Item}

theorem head?_words_iff {name : String} (hname : name ≠ "") :
    s.words.head? = some name ↔ s.name = name := by
  cases hargs : s.args.head? with
  | none => simp [Statement.name, Statement.words, hargs, hname.symm]
  | some t => simp [Statement.name, Statement.words, hargs]

@[simp] theorem last_concat (read : Statement → Option α) : last read (ss ++ [s]) = read s := by
  simp [last]

@[simp] theorem together_concat (combine : List Statement → α) :
    together combine (ss ++ [s]) = some (combine (ss ++ [s])) := by
  simp [together]

theorem getD_together {combine : List Statement → α} {empty : α} (h : combine [] = empty) :
    (together combine ss).getD empty = combine ss := by
  unfold together
  split <;> simp_all

theorem words_concat : words (ss ++ [s]) = words ss ++ s.values.map Token.value := by
  simp [words]

theorem protocols_concat :
    protocols (ss ++ [s]) =
      (s.values.map Token.value).foldl (· ||| Slot.bitsOf Http.protocolNames ·) (protocols ss) := by
  simp only [protocols, words_concat, List.foldl_append]
  rfl

theorem typeTable_concat :
    typeTable (ss ++ [s]) =
      s.values.foldl (fun table t => table.insert (Text.toLower t.value) s.name)
        (typeTable ss) := by
  simp [typeTable, Named.ofList, List.foldl_map]

theorem directivesNamed_directive (name : String) (hs : s.terminator = .semicolon) :
    directivesNamed name (body ++ [.directive s hs]) =
      if s.name = name then directivesNamed name body ++ [s] else directivesNamed name body := by
  unfold directivesNamed
  rw [List.filterMap_append]
  by_cases hname : s.name = name <;> simp [hname]

theorem typeLines_directive (hs : s.terminator = .semicolon) :
    typeLines (body ++ [.directive s hs]) = typeLines body := by
  simp [typeLines]

theorem directivesNamed_block (name : String) {opening closing : Statement} {inside : List Item}
    (hopening : opening.terminator = .openBrace) (hclosing : closing.terminator = .closeBrace) :
    directivesNamed name (body ++ [.block opening hopening inside closing hclosing]) =
      directivesNamed name body := by
  simp [directivesNamed]

theorem typeLines_block {opening closing : Statement} {inside : List Item}
    (hopening : opening.terminator = .openBrace) (hclosing : closing.terminator = .closeBrace) :
    typeLines (body ++ [.block opening hopening inside closing hclosing]) =
      if opening.name = "types" then typeLines body ++ Item.flattenAll inside
      else typeLines body := by
  simp only [typeLines, List.flatMap_append, List.flatMap_singleton]
  split <;> simp

theorem contextsOf_append (settings : List (List Item) → Http) (outer : List (List Item))
    (items later : List Item) :
    contextsOf settings outer (items ++ later) =
      contextsOf settings outer items ++ contextsOf settings outer later := by
  induction items with
  | nil => rfl
  | cons i items ih => simp only [List.cons_append, contextsOf, ih, List.append_assoc]

end ScopedConf.Server
