import Switchboard.Config.Json
import Switchboard.Proofs.Json.Records

set_option autoImplicit false

/-! # Configurations survive JSON

Every configuration is read back from its written form, and from all variations of this text: with
its members in any order, without members that hold their defaults, and with members of other names
(`configurations_survive_json`).
-/

namespace Switchboard

open Json (Value Form Varies Blanks Digits Derives Foreign writtenMember)
open Json.Reader (reads_text reads_word reads_dictionary reads_list reads_optional reads_variant)

namespace AppConfig

/-- How settings of an application are written and read. -/
def form : Form AppConfig AppConfig where
  members :=
    [ { name := "middleware_max"
        reader := Json.Reader.word "usize"
        get := middlewareMax
        store := fun n c => { c with middlewareMax := n }
        write := .natural
        reads := reads_word _
        overwrites := fun _ _ _ => rfl },
      { name := "method_mapping"
        reader := Json.Reader.dictionary (Json.Reader.text "a string")
        get := methodMapping
        store := fun m c => { c with methodMapping := m }
        write := fun m => .object (m.entries.map fun e => (e.1, .text e.2))
        reads := fun _ => reads_dictionary fun e _ => reads_text _ e.2
        overwrites := fun _ _ _ => rfl } ]
  start := {}
  result := id
  nodup := by
    show ["middleware_max", "method_mapping"].Nodup
    decide
  apart := by simp [Json.Member.Apart]
  whole _ _ := rfl

theorem ofJson_of_varies {c : AppConfig} {text : String}
    (h : Varies c.toJson ({} : AppConfig).toJson text) : ofJson text = .ok c := by
  have hdocument : reader.document text = .ok c :=
    form.document_of_varies "struct Config" true rfl h
  exact congrArg (Except.mapError ConfigError.malformed) hdocument

end AppConfig

namespace TlsConfig

/-- How the places of certificate and key are written and read. There are no defaults for them. -/
def form : Form TlsConfig Draft where
  members :=
    [ { name := "cert_file"
        reader := Json.Reader.text "path string"
        get := certFile
        store := fun s d => { d with certFile := some s }
        write := .text
        reads := reads_text _
        overwrites := fun _ _ _ => rfl },
      { name := "key_file"
        reader := Json.Reader.text "path string"
        get := keyFile
        store := fun s d => { d with keyFile := some s }
        write := .text
        reads := reads_text _
        overwrites := fun _ _ _ => rfl } ]
  start := {}
  result c := { certFile := some c.certFile, keyFile := some c.keyFile }
  nodup := by
    show ["cert_file", "key_file"].Nodup
    decide
  apart := by simp [Json.Member.Apart]
  whole _ _ := rfl

theorem reads_toJson (c : TlsConfig) : reader.Reads c.toJson.written c :=
  (form.reads_written "struct TlsConfig" false c).convert rfl

end TlsConfig

namespace ServerConfig

theorem lookup_signal (s : Signal) :
    (Signal.all.map fun s => (s.name, s)).lookup s.name = some s := by
  cases s <;> decide

theorem reads_signals (l : List Signal) :
    (Json.Reader.variant (Signal.all.map fun s => (s.name, s))).list.Reads
      (Value.list (l.map fun s => .text s.name)).written l := by
  refine reads_list ?_
  rw [List.forall₂_map_left_iff, List.forall₂_same]
  exact fun s _ => reads_variant (lookup_signal s)

/-- How settings of a server are written and read. -/
def form : Form ServerConfig ServerConfig where
  members :=
    [ { name := "name"
        reader := Json.Reader.text "a string"
        get := name
        store := fun s c => { c with name := s }
        write := .text
        reads := reads_text _
        overwrites := fun _ _ _ => rfl },
      { name := "addr"
        reader := (Json.Reader.text "a string").optional
        get := addr
        store := fun s c => { c with addr := s }
        write := fun o => (o.map .text).getD .null
        reads := reads_optional (reads_text _) fun _ h => Value.noConfusion h
        overwrites := fun _ _ _ => rfl },
      { name := "signals"
        reader := (Json.Reader.variant (Signal.all.map fun s : Signal => (s.name, s))).list
        get := signals
        store := fun l c => { c with signals := l }
        write := fun l => .list (l.map fun s => .text s.name)
        reads := reads_signals
        overwrites := fun _ _ _ => rfl },
      { name := "tls"
        reader := TlsConfig.reader.optional
        get := tls
        store := fun t c => { c with tls := t }
        write := fun o => (o.map TlsConfig.toJson).getD .null
        reads := reads_optional TlsConfig.reads_toJson fun _ h => Value.noConfusion h
        overwrites := fun _ _ _ => rfl },
      { name := "shutdown_timeout_secs"
        reader := (Json.Reader.word "u64").optional
        get := shutdownTimeoutSecs
        store := fun n c => { c with shutdownTimeoutSecs := n }
        write := fun o => (o.map .natural).getD .null
        reads := reads_optional (reads_word _) fun _ h => Value.noConfusion h
        overwrites := fun _ _ _ => rfl } ]
  start := {}
  result := id
  nodup := by
    show ["name", "addr", "signals", "tls", "shutdown_timeout_secs"].Nodup
    decide
  apart := by simp [Json.Member.Apart]
  whole _ _ := rfl

theorem ofJson_of_varies {c : ServerConfig} {text : String}
    (h : Varies c.toJson ({} : ServerConfig).toJson text) : ofJson text = .ok c := by
  have hdocument : reader.document text = .ok c :=
    form.document_of_varies "struct RunnerConfig" true rfl h
  exact congrArg (Except.mapError ConfigError.malformed) hdocument

end ServerConfig

/-- Every configuration of an application or a server is read back from its written form. It is read
as well from every text that says the same in other words: with the members in any order, without
some that hold their defaults, and with members of other names, in any spelling and with any
well-formed value. -/
theorem configurations_survive_json :
    (∀ c : AppConfig, AppConfig.ofJson c.toJson.render = .ok c ∧
      ∀ text, Varies c.toJson ({} : AppConfig).toJson text → AppConfig.ofJson text = .ok c) ∧
    ∀ c : ServerConfig, ServerConfig.ofJson c.toJson.render = .ok c ∧
      ∀ text, Varies c.toJson ({} : ServerConfig).toJson text →
        ServerConfig.ofJson text = .ok c := by
  refine ⟨fun c => ⟨?_, fun text h => AppConfig.ofJson_of_varies h⟩,
    fun c => ⟨?_, fun text h => ServerConfig.ofJson_of_varies h⟩⟩
  · exact AppConfig.ofJson_of_varies (Json.varies_render _ _)
  · exact ServerConfig.ofJson_of_varies (Json.varies_render _ _)

/-- The signals of a server before its name, between them a member whose value holds half of a
character, and no other settings. -/
theorem configurations_survive_json_rearranged :
    let c : ServerConfig := { name := "\"é\n", signals := [.hangup] }
    let text :=
      "\x7b\"signals\":[\"hangup\"], \"\\u0078\" : [-1,\"\\ud800\"] ,\"name\":\"\\\"é\\n\"\x7d"
    Varies c.toJson ({} : ServerConfig).toJson text ∧ ServerConfig.ofJson text = .ok c := by
  intro c text
  have hblank : Blanks [' '] := List.forall_mem_singleton.2 rfl
  have hdigit : Digits ['1'] := ⟨List.cons_ne_nil _ _, List.forall_mem_singleton.2 rfl⟩
  have hnumber : Derives .value ['-', '1'] :=
    .number ⟨['-'], by decide, ['1'], [], [], rfl, ⟨hdigit, nofun⟩, .inl rfl, .inl rfl⟩
  have hhalf : Derives .value ('"' :: ['\\', 'u', 'd', '8', '0', '0'] ++ ['"']) :=
    .text (.quad ⟨13, 8, 0, 0, rfl, rfl⟩ .nil)
  have hitems : Derives (.items .list) _ :=
    .more (.ofElement hnumber.alone) (.one (.ofElement hhalf.alone))
  let other : List Char := " \"\\u0078\" : [-1,\"\\ud800\"] ".toList
  have hforeign : Foreign (c.toJson.members.map (·.1)) other :=
    ⟨[' '], ['\\', 'u', '0', '0', '7', '8'], ['x'], [' '], _, rfl, hblank,
      .quad ⟨0, 0, 7, 8, rfl, rfl⟩ .nil, by decide, hblank,
      .element hblank (.filled .list hitems) hblank⟩
  have hvaries : Varies c.toJson ({} : ServerConfig).toJson text := by
    let name : String × Value := ("name", .text "\"é\n")
    let signals : String × Value := ("signals", .list [.text "hangup"])
    refine ⟨[name, signals], [other], [writtenMember signals, other, writtenMember name], ?_, ?_,
      List.forall_mem_singleton.2 hforeign, ?_, ?_⟩
    · exact .cons_cons name (.cons _ (.cons_cons signals (List.nil_sublist _)))
    · show ∀ m ∈ [name, ("addr", .null), signals, ("tls", .null), ("shutdown_timeout_secs", .null)],
        m ∈ [name, signals] ∨ m ∈ [("name", .text ""), ("addr", .null), _, ("tls", .null),
          ("shutdown_timeout_secs", .null)]
      simp
    · show ([writtenMember signals, other] ++ [writtenMember name]).Perm _
      exact List.perm_append_comm
    · simp only [text, other, name, signals]
      rfl
  exact ⟨hvaries, (configurations_survive_json.2 c).2 text hvaries⟩

end Switchboard
