import Gregg.ConfigFile.NormalHost

/-!
# Stored configurations read back

Every host a command stores is normal, so that a configuration a run of commands leaves is read back
as it was written.
-/

namespace Gregg.ConfigFile

open Clientd (SystemEntry)
open Fleet (IpSyntax normalizeHost containsText)

section Results

variable {Failure Value : Type}

theorem eq_ok_of_mapError {Other : Type} {result : Except Failure Value} {f : Failure → Other}
    {value : Value} (succeeds : result.mapError f = .ok value) : result = .ok value := by
  cases result with
  | error failure => cases succeeds
  | ok found =>
      cases succeeds
      rfl

end Results

section Parsing

variable {ip : IpSyntax} {input : List Char} {spec : EndpointSpec}

/-- The host that the text of an endpoint with a port spells. -/
def spelledHost (text : List Char) : List Char :=
  if text.head? = some '[' then (((Text.splitOnce ']' text).map Prod.fst).getD text).drop 1
  else ((rsplitOnceColon text).map Prod.fst).getD text

theorem EndpointSpec.of_ofHost (parsed : EndpointSpec.ofHost ip input = .ok spec) :
    spec.portWasExplicit = false ∧ normalizeHost ip input = some spec.host := by
  rw [EndpointSpec.ofHost] at parsed
  split at parsed
  · cases parsed
  · rename_i normalizes
    cases parsed
    exact ⟨rfl, normalizes⟩

theorem EndpointSpec.of_ofParts {hostPart portPart : List Char}
    (parsed : EndpointSpec.ofParts ip hostPart portPart input = .ok spec) :
    spec.portWasExplicit = true ∧ normalizeHost ip hostPart = some spec.host := by
  rw [EndpointSpec.ofParts] at parsed
  rcases exists_of_bind_eq_ok parsed with ⟨port, -, normal⟩
  split at normal
  · cases normal
  · rename_i normalizes
    cases normal
    exact ⟨rfl, normalizes⟩

theorem EndpointSpec.of_parseBracketedIpv6 (bracketed : input.head? = some '[')
    (parsed : EndpointSpec.parseBracketedIpv6 ip input = .ok spec) :
    spec.portWasExplicit = true ∧ normalizeHost ip (spelledHost input) = some spec.host := by
  rw [EndpointSpec.parseBracketedIpv6] at parsed
  split at parsed
  · cases parsed
  · rename_i before rest split
    have spelled : spelledHost input = before.drop 1 := by
      rw [spelledHost, if_pos bracketed, split]
      rfl
    rw [spelled]
    simp only at parsed
    split at parsed
    · cases parsed
    · split at parsed
      · split at parsed
        · cases parsed
        · rcases exists_of_bind_eq_ok parsed with ⟨port, -, normal⟩
          split at normal
          · cases normal
          · split at normal
            · cases normal
            · rename_i normalizes
              cases normal
              exact ⟨rfl, normalizes⟩
      · cases parsed

/-- What an accepted endpoint text names. -/
theorem EndpointSpec.of_parse (parsed : EndpointSpec.parse ip input = .ok spec) :
    (spec.portWasExplicit = true ∧
        normalizeHost ip (spelledHost (Text.trim input)) = some spec.host) ∨
      (spec.portWasExplicit = false ∧ normalizeHost ip (Text.trim input) = some spec.host ∧
        (':' ∉ Text.trim input ∨ (ip.reprint (Text.trim input)).isSome ∨
          isIpv6WithZoneId ip (Text.trim input) = true)) := by
  have spelled : ∀ text hostPart portPart, text.head? ≠ some '[' →
      rsplitOnceColon text = some (hostPart, portPart) → spelledHost text = hostPart := by
    intro text hostPart portPart unbracketed split
    rw [spelledHost, if_neg unbracketed, split]
    rfl
  simp only [EndpointSpec.parse] at parsed
  split at parsed
  · cases parsed
  · split at parsed
    · cases parsed
    · split at parsed
      · cases parsed
      · split at parsed
        · cases parsed
        · split at parsed
          · rename_i bracketed
            exact .inl (of_parseBracketedIpv6 bracketed parsed)
          · rename_i unbracketed
            split at parsed
            · rename_i noColon
              rcases of_ofHost parsed with ⟨implicit, normalizes⟩
              exact .inr ⟨implicit, normalizes, .inl (List.count_eq_zero.mp noColon)⟩
            · split at parsed
              · cases parsed
              · rename_i hostPart portPart split
                rw [spelled _ _ _ unbracketed split]
                exact .inl (of_ofParts parsed)
            · split at parsed
              · rename_i isAddress
                rw [Bool.or_eq_true] at isAddress
                split at parsed
                · cases parsed
                · rcases of_ofHost parsed with ⟨implicit, normalizes⟩
                  exact .inr ⟨implicit, normalizes, .inr isAddress⟩
              · split at parsed
                · cases parsed
                · rename_i hostPart portPart split
                  rw [spelled _ _ _ unbracketed split]
                  split at parsed
                  · cases parsed
                  · exact .inl (of_ofParts parsed)

/-- The host an accepted endpoint text names is normal. -/
theorem IpText.normalHost_of_parse (ip : IpText)
    (parsed : EndpointSpec.parse ip.toIpSyntax input = .ok spec) :
    NormalHost ip.toIpSyntax spec.host := by
  rcases EndpointSpec.of_parse parsed with ⟨-, normalizes⟩ | ⟨-, normalizes, -⟩
  · exact ip.normalHost_of_normalizeHost normalizes
  · exact ip.normalHost_of_normalizeHost normalizes

end Parsing

section Adding

variable {ip : IpSyntax} {urls : UrlSyntax} {input : List Char} {target : AddTarget}

/-- The endpoint in the text of `gregg add`, without the name before it. -/
def unnamedText (input : List Char) : List Char :=
  let trimmed := Text.trim input
  if looksLikeHttpUrl trimmed then trimmed
  else
    match Text.splitOnce '@' trimmed with
    | none => trimmed
    | some (_, rest) => rest

/-- The `host:port` text that the text of `gregg add` spells. -/
def endpointText (urls : UrlSyntax) (input : List Char) : Option (List Char) :=
  let text := Text.trim (unnamedText input)
  if containsText [':', '/', '/'] text then
    (urls text).bind fun url => (urlEndpoint url text).toOption
  else some text

theorem of_parseAddInput {spec : EndpointSpec}
    (parsed : EndpointSpec.parseAddInput ip urls input = .ok spec) :
    ∃ text, (if containsText [':', '/', '/'] (Text.trim input) then
        (urls (Text.trim input)).bind fun url => (urlEndpoint url (Text.trim input)).toOption
      else some (Text.trim input)) = some text ∧ EndpointSpec.parse ip text = .ok spec := by
  simp only [EndpointSpec.parseAddInput] at parsed
  split at parsed
  · rename_i hasScheme
    rw [if_pos hasScheme]
    split at parsed
    · cases parsed
    · rename_i url parsedUrl
      rcases exists_of_bind_eq_ok parsed with ⟨text, isText, parsedText⟩
      refine ⟨text, ?_, parsedText⟩
      rw [parsedUrl, Option.bind_some, isText]
      rfl
  · rename_i noScheme
    rw [if_neg noScheme]
    exact ⟨_, rfl, parsed⟩

theorem of_parseAddTarget (parsed : parseAddTarget ip urls input = .ok target) :
    ∃ text, endpointText urls input = some text ∧
      EndpointSpec.parse ip text = .ok target.endpoint := by
  have unnamed : ∀ part, (EndpointSpec.parseAddInput ip urls part).map
      (fun spec => (⟨none, spec⟩ : AddTarget)) = .ok target →
      EndpointSpec.parseAddInput ip urls part = .ok target.endpoint := by
    intro part succeeds
    cases parsedPart : EndpointSpec.parseAddInput ip urls part with
    | error failure =>
        rw [parsedPart] at succeeds
        cases succeeds
    | ok spec =>
        rw [parsedPart] at succeeds
        cases succeeds
        rfl
  have parsedPart : EndpointSpec.parseAddInput ip urls (unnamedText input) =
      .ok target.endpoint := by
    simp only [parseAddTarget] at parsed
    split at parsed
    · rename_i isUrl
      have part : unnamedText input = Text.trim input := by
        rw [unnamedText, if_pos isUrl]
      rw [part]
      exact unnamed _ parsed
    · rename_i notUrl
      split at parsed
      · rename_i noName
        have part : unnamedText input = Text.trim input := by
          simp [unnamedText, notUrl, noName]
        rw [part]
        exact unnamed _ parsed
      · rename_i nick rest split
        have part : unnamedText input = rest := by
          simp [unnamedText, notUrl, split]
        rw [part]
        split at parsed
        · cases parsed
        · split at parsed
          · cases parsed
          · rcases exists_of_bind_eq_ok parsed with ⟨_, -, afterName⟩
            rcases exists_of_bind_eq_ok afterName with ⟨spec, parsedRest, isTarget⟩
            cases isTarget
            exact parsedRest
  exact of_parseAddInput parsedPart

theorem of_cmdAdd {name : Option (List Char)} {replace : Bool} {newId : String}
    {config after : Config} (added : cmdAdd ip urls input name replace newId config = .ok after) :
    ∃ target finalName, parseAddTarget ip urls input = .ok target ∧
      target.endpoint.portWasExplicit = true ∧
      addSystem ip target.endpoint.host target.endpoint.port finalName replace newId config =
        .ok after := by
  rcases exists_of_bind_eq_ok added with ⟨target, parsed, rest⟩
  refine ⟨target, (target.name.or name).map String.ofList, eq_ok_of_mapError parsed, ?_⟩
  split at rest
  · cases rest
  · split at rest
    · cases rest
    · rename_i explicit
      rcases exists_of_bind_eq_ok rest with ⟨_, -, stored⟩
      exact ⟨by simpa using explicit, eq_ok_of_mapError stored⟩

/-- What `gregg add` leaves: the entry it was given, and nothing else that was not there. -/
theorem mem_of_addSystem {host : List Char} {port : UInt16} {name : Option String} {replace : Bool}
    {newId : String} {config after : Config}
    (added : addSystem ip host port name replace newId config = .ok after) :
    after = { config with systems := after.systems } ∧
    (∃ entry ∈ after.systems, entry.host = String.ofList host ∧ entry.port = port) ∧
    ∀ system ∈ after.systems,
      system ∈ config.systems ∨ system.host = String.ofList host ∧ system.port = port := by
  rw [addSystem] at added
  split at added
  · rename_i index found
    split at added
    · cases added
      have inRange : index < config.systems.length :=
        (List.findIdx?_eq_some_iff_getElem.mp found).choose
      rcases List.exists_of_modify (fun existing : SystemEntry =>
          ⟨existing.id, String.ofList host, port, name⟩) inRange with
        ⟨front, existing, back, systems, -, modified⟩
      simp only [modified]
      refine ⟨trivial, ⟨_, List.mem_append_right front List.mem_cons_self, rfl, rfl⟩, ?_⟩
      intro system member
      rw [systems]
      rcases List.mem_append.mp member with inFront | rest
      · exact .inl (List.mem_append_left _ inFront)
      · rcases List.mem_cons.mp rest with rfl | inBack
        · exact .inr ⟨rfl, rfl⟩
        · exact .inl (List.mem_append_right _ (List.mem_cons_of_mem _ inBack))
    · cases added
  · cases added
    refine ⟨rfl, ⟨⟨newId, String.ofList host, port, name⟩, by simp, rfl, rfl⟩, ?_⟩
    intro system member
    rcases List.mem_append.mp member with old | new
    · exact .inl old
    · rw [List.mem_singleton] at new
      rw [new]
      exact .inr ⟨rfl, rfl⟩

end Adding

section EggpoolParsing

variable (ip : IpText) {input : List Char} {spec : EggpoolEndpointSpec}

theorem IpText.normal_ofHost
    (parsed : EggpoolEndpointSpec.ofHost ip.toIpSyntax input = .ok spec) :
    NormalHost ip.toIpSyntax spec.host := by
  rcases exists_of_bind_eq_ok parsed with ⟨host, normalizes, ⟨⟩⟩
  exact ip.normalHost_of_eggpoolNormalizeHost normalizes

theorem IpText.normal_parseBracketed
    (parsed : EggpoolEndpointSpec.parseBracketed ip.toIpSyntax input = .ok spec) :
    NormalHost ip.toIpSyntax spec.host := by
  rw [EggpoolEndpointSpec.parseBracketed] at parsed
  split at parsed
  · cases parsed
  · simp only at parsed
    split at parsed
    · split at parsed
      · cases parsed
      · split at parsed
        · cases parsed
        · rcases exists_of_bind_eq_ok parsed with ⟨port, -, rest⟩
          rcases exists_of_bind_eq_ok rest with ⟨host, normalizes, ⟨⟩⟩
          exact ip.normalHost_of_eggpoolNormalizeHost normalizes
    · cases parsed

/-- The host an accepted EggPool endpoint text names is normal. -/
theorem IpText.normalHost_of_eggpoolParse
    (parsed : EggpoolEndpointSpec.parse ip.toIpSyntax input = .ok spec) :
    NormalHost ip.toIpSyntax spec.host := by
  simp only [EggpoolEndpointSpec.parse] at parsed
  split at parsed
  · cases parsed
  · split at parsed
    · cases parsed
    · split at parsed
      · cases parsed
      · split at parsed
        · cases parsed
        · split at parsed
          · exact ip.normal_parseBracketed parsed
          · split at parsed
            · split at parsed
              · cases parsed
              · exact ip.normal_ofHost parsed
            · split at parsed
              · cases parsed
              · split at parsed
                · rcases exists_of_bind_eq_ok parsed with ⟨host, normalizes, rest⟩
                  rcases exists_of_bind_eq_ok rest with ⟨port, -, ⟨⟩⟩
                  exact ip.normalHost_of_eggpoolNormalizeHost normalizes
                · exact ip.normal_ofHost parsed

end EggpoolParsing

/-- Every host is in the form that reading leaves. -/
structure Config.Normal (ip : IpSyntax) (config : Config) : Prop where
  systems : ∀ system ∈ config.systems, NormalHost ip system.host.toList
  eggpool : ∀ entry ∈ config.eggpool, NormalHost ip entry.host

section Accepting

variable (ip : IpText) {config raw : Config}

theorem IpText.normalizeSystem_eq_self {system : SystemEntry}
    (normal : NormalHost ip.toIpSyntax system.host.toList) :
    normalizeSystem ip.toIpSyntax system = .ok system := by
  rw [normalizeSystem, normal.normalizeHost_eq_self]
  simp only [String.ofList_toList]

theorem mapM_eq_ok_self {Item Failure : Type} {check : Item → Except Failure Item}
    {items : List Item} (kept : ∀ item ∈ items, check item = .ok item) :
    items.mapM check = .ok items := by
  induction items with
  | nil => rfl
  | cons item items ih =>
      rw [List.forall_mem_cons] at kept
      rw [List.mapM_cons, kept.1, ih kept.2]
      rfl

theorem forall_of_mapM_eq_ok {Item Failure : Type} {check : Item → Except Failure Item}
    {property : Item → Prop} (checked : ∀ item result, check item = .ok result → property result)
    {items results : List Item} (succeeds : items.mapM check = .ok results) :
    ∀ result ∈ results, property result := by
  induction items generalizing results with
  | nil =>
      cases succeeds
      simp
  | cons item items ih =>
      rw [List.mapM_cons] at succeeds
      rcases exists_of_bind_eq_ok succeeds with ⟨first, isFirst, rest⟩
      rcases exists_of_bind_eq_ok rest with ⟨others, areOthers, ⟨⟩⟩
      rw [List.forall_mem_cons]
      exact ⟨checked item first isFirst, ih areOthers⟩

/-- A valid configuration whose hosts are normal is read back as it was. -/
theorem Config.accept_eq_self (normal : config.Normal ip.toIpSyntax)
    (valid : config.validate ip.toIpSyntax = []) : config.accept ip.toIpSyntax = .ok config := by
  have systems : config.systems.mapM (normalizeSystem ip.toIpSyntax) = .ok config.systems :=
    mapM_eq_ok_self fun system member => ip.normalizeSystem_eq_self (normal.systems system member)
  have eggpool : config.eggpool.mapM (normalizeEggpool ip.toIpSyntax) = .ok config.eggpool := by
    rcases stored : config.eggpool with _ | entry
    · rfl
    · have same : normalizeEggpool ip.toIpSyntax entry = .ok entry := by
        rw [normalizeEggpool, (normal.eggpool entry stored).normalizeHost_eq_self]
      simp only [Option.mapM_some, same]
      rfl
  rw [Config.accept, systems, eggpool]
  simp [bind, Except.bind, valid]

/-- What reading leaves is valid and has normal hosts. -/
theorem Config.of_accept (accepted : raw.accept ip.toIpSyntax = .ok config) :
    config.Normal ip.toIpSyntax ∧ config.validate ip.toIpSyntax = [] := by
  rcases exists_of_bind_eq_ok accepted with ⟨systems, normalizedSystems, rest⟩
  rcases exists_of_bind_eq_ok rest with ⟨eggpool, normalizedEggpool, checked⟩
  simp only at checked
  split at checked
  · rename_i valid
    cases checked
    refine ⟨⟨?_, ?_⟩, by simpa using valid⟩
    · refine forall_of_mapM_eq_ok ?_ normalizedSystems
      intro system result normalizes
      rw [normalizeSystem] at normalizes
      split at normalizes
      · rename_i host isHost
        cases normalizes
        simpa using ip.normalHost_of_normalizeHost isHost
      · cases normalizes
    · intro entry isEntry
      rcases stored : raw.eggpool with _ | original
      · rw [stored] at normalizedEggpool
        cases normalizedEggpool
        cases isEntry
      · rw [stored, Option.mapM_some] at normalizedEggpool
        rcases exists_of_bind_eq_ok normalizedEggpool with ⟨result, normalizes, ⟨⟩⟩
        cases isEntry
        rw [normalizeEggpool] at normalizes
        split at normalizes
        · rename_i host isHost
          cases normalizes
          exact ip.normalHost_of_normalizeHost isHost
        · cases normalizes
  · cases checked

end Accepting

/-- The configurations that a run of the commands leaves, each started from the default or from a
file that was read. -/
inductive Reachable (ip : IpSyntax) (urls : UrlSyntax) (codec : TomlCodec) : Config → Prop where
  | default : Reachable ip urls codec Config.default
  | parsed (content : List Char) (config : Config)
      (isParsed : Config.parse ip codec content = .ok config) : Reachable ip urls codec config
  | changed (config after : Config) (change : Change) (before : Reachable ip urls codec config)
      (applied : change.apply ip urls config = .ok after) (valid : after.validate ip = []) :
      Reachable ip urls codec after

section Runs

variable (ip : IpText) {urls : UrlSyntax} {codec : TomlCodec} {config after : Config}

/-- A command stores normal hosts only. -/
theorem Config.Normal.apply (normal : config.Normal ip.toIpSyntax) {change : Change}
    (applied : change.apply ip.toIpSyntax urls config = .ok after) :
    after.Normal ip.toIpSyntax := by
  cases change with
  | add input name replace newId =>
      rcases of_cmdAdd applied with ⟨target, finalName, parsed, -, stored⟩
      rcases of_parseAddTarget parsed with ⟨text, -, parsedText⟩
      rcases mem_of_addSystem stored with ⟨same, -, members⟩
      refine ⟨?_, ?_⟩
      · intro system member
        rcases members system member with old | ⟨isHost, -⟩
        · exact normal.systems system old
        · rw [isHost, String.toList_ofList]
          exact ip.normalHost_of_parse parsedText
      · rw [same]
        exact normal.eggpool
  | remove input =>
      rcases exists_of_bind_eq_ok applied with ⟨spec, -, ⟨⟩⟩
      exact ⟨fun system member => normal.systems system (List.mem_of_mem_filter member),
        normal.eggpool⟩
  | refresh seconds =>
      cases applied
      exact ⟨normal.systems, normal.eggpool⟩
  | eggpoolAdd input name https apiKeyEnv replace newId =>
      rcases exists_of_bind_eq_ok applied with ⟨spec, parsed, rest⟩
      rcases exists_of_bind_eq_ok rest with ⟨-, -, rest⟩
      rcases exists_of_bind_eq_ok rest with ⟨-, -, rest⟩
      have normalHost := ip.normalHost_of_eggpoolParse (eq_ok_of_mapError parsed)
      simp only at rest
      split at rest
      · cases rest
        refine ⟨normal.systems, ?_⟩
        rintro _ ⟨⟩
        exact normalHost
      · split at rest
        · cases rest
          refine ⟨normal.systems, ?_⟩
          rintro _ ⟨⟩
          exact normalHost
        · cases rest
  | eggpoolRemove input =>
      rcases exists_of_bind_eq_ok applied with ⟨spec, -, ⟨⟩⟩
      refine ⟨normal.systems, ?_⟩
      intro entry isEntry
      exact normal.eggpool entry (Option.filter_eq_some_iff.mp isEntry).1

theorem Reachable.normal_and_valid (reachable : Reachable ip.toIpSyntax urls codec config) :
    config.Normal ip.toIpSyntax ∧ config.validate ip.toIpSyntax = [] := by
  induction reachable with
  | default =>
      refine ⟨⟨?_, ?_⟩, rfl⟩
      · simp [Config.default]
      · simp [Config.default]
  | parsed content config isParsed =>
      rw [Config.parse] at isParsed
      split at isParsed
      · cases isParsed
      · exact Config.of_accept ip isParsed
  | changed config after change _ applied valid ih =>
      exact ⟨ih.1.apply ip applied, valid⟩

theorem Config.integersFit_of_validate (valid : config.validate ip.toIpSyntax = []) :
    config.IntegersFit := by
  simp only [validate, List.append_eq_nil_iff, List.map_eq_nil_iff] at valid
  rcases valid with ⟨⟨⟨⟨⟨⟨⟨version, refresh⟩, timeout⟩, requests⟩, -⟩, -⟩, -⟩, cron⟩
  simp only [Fleet.CronConfig.validate, List.append_eq_nil_iff] at cron
  rcases cron with ⟨⟨display, cache⟩, -⟩
  simp only [ite_eq_right_iff, List.cons_ne_nil, imp_false, Bool.or_eq_true, decide_eq_true_eq,
    not_or, not_not, ne_eq, not_lt] at version refresh timeout requests display cache
  simp only [SUPPORTED_CONFIG_VERSION, MAX_REFRESH_SECONDS, MAX_REQUEST_TIMEOUT_MS,
    MAX_CONCURRENT_REQUESTS, Fleet.MAX_DISPLAY_HISTORY, MAX_CACHE_HISTORY]
    at version refresh timeout requests display cache
  simp only [IntegersFit, List.forall_mem_cons, List.not_mem_nil, false_implies, implies_true,
    and_true]
  omega

/-- The text of a reachable configuration is read back as the configuration. -/
theorem Reachable.parse_serialize (reachable : Reachable ip.toIpSyntax urls codec config) :
    ∃ text, codec.serialize config = some text ∧
      Config.parse ip.toIpSyntax codec text = .ok config := by
  rcases reachable.normal_and_valid with ⟨normal, valid⟩
  have serializes := codec.serializes config (Config.integersFit_of_validate ip valid)
  rcases Option.isSome_iff_exists.mp serializes with ⟨text, isText⟩
  refine ⟨text, isText, ?_⟩
  rw [Config.parse, codec.inverse config text isText]
  exact Config.accept_eq_self ip normal valid

end Runs

end Gregg.ConfigFile
