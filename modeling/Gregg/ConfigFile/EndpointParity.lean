import Mathlib.Data.List.Chain
import Gregg.ConfigFile.EggpoolEndpoint
import Gregg.ConfigFile.RemoveAdded

/-!
# Two parsers of endpoints

The parsers of `gregg add` and of `gregg eggpool` take their decisions in different orders. Brought
to one order, they differ in four ways: an IPv4 address in brackets, more than one colon outside of
brackets, spaces around a port, and reserved characters in a zone.
-/

namespace Gregg.ConfigFile

open Fleet (IpSyntax normalizeHost containsText toAsciiLowercase)

section Ports

variable {text : List Char} {value port : ℕ}

/-- The port that a text spells, with spaces around it. -/
def portNumber (text : List Char) : Option UInt16 :=
  ((Text.parseUsize (Text.trim text)).filter fun port => 0 < port && port ≤ 65535).map UInt16.ofNat

theorem of_mem_of_parseUsize (parses : Text.parseUsize text = some port) {character : Char}
    (member : character ∈ text) : character.isDigit = true ∨ character = '+' := by
  rcases Text.parseUsize_eq_some_iff.mp parses with ⟨digits, isText, -, read⟩
  have decimal := ((Text.parseDigits_eq_some_iff (Nat.zero_le _)).mp read).1
  rcases isText with rfl | rfl
  · exact .inl (decimal character member)
  · rcases List.mem_cons.mp member with isSign | isDigit
    · exact .inr isSign
    · exact .inl (decimal character isDigit)

theorem isWhitespace_of_parseUsize (parses : Text.parseUsize text = some port) {character : Char}
    (member : character ∈ text) : Text.isWhitespace character = false := by
  rcases of_mem_of_parseUsize parses member with isDigit | rfl
  · exact isWhitespace_of_isDigit isDigit
  · decide

/-- No space stands around a number. -/
theorem trim_of_parseUsize (parses : Text.parseUsize text = some port) :
    Text.trim text = text := by
  rw [trim_eq_self_iff]
  constructor
  · intro character isHead
    exact isWhitespace_of_parseUsize parses (List.mem_of_mem_head? isHead)
  · intro character isLast
    exact isWhitespace_of_parseUsize parses (List.mem_of_mem_getLast? isLast)

theorem toOption_parsePort (portText fullInput : List Char) :
    (parsePort portText fullInput).toOption = portNumber portText := by
  simp only [parsePort, portNumber]
  split
  · rename_i empty
    rw [List.isEmpty_iff.mp empty]
    rfl
  · cases Text.parseUsize (Text.trim portText) with
    | none => rfl
    | some port =>
        simp only [Option.filter_some]
        by_cases zero : port = 0
        · simp [zero, Except.toOption]
        · by_cases fits : port ≤ 65535
          · simp [zero, fits, Nat.not_lt.mpr fits, Nat.pos_of_ne_zero zero, Except.toOption]
          · simp [zero, fits, Nat.lt_of_not_le fits, Except.toOption]

/-- An EggPool port is the same one, and has no spaces around it. -/
theorem toOption_eggpoolParsePort (portText : List Char) : (eggpoolParsePort portText).toOption =
    if Text.trim portText = portText then portNumber portText else none := by
  rw [eggpoolParsePort, portNumber]
  cases parses : Text.parseUsize portText with
  | none =>
      by_cases trimmed : Text.trim portText = portText
      · rw [trimmed, parses]
        exact (ite_self _).symm
      · rw [if_neg trimmed]
        rfl
  | some port =>
      rw [trim_of_parseUsize parses, if_pos rfl, parses, Option.filter_some]
      by_cases zero : port = 0
      · simp [zero, Except.toOption]
      · by_cases fits : port ≤ 65535
        · simp [zero, fits, Nat.not_lt.mpr fits, Nat.pos_of_ne_zero zero, Except.toOption]
        · simp [zero, fits, Nat.lt_of_not_le fits, Except.toOption]

/-- What a port is spelled with. -/
theorem not_mem_of_portNumber (isPort : (portNumber text).isSome) {symbol : Char}
    (notDigit : symbol.isDigit = false) (notSign : symbol ≠ '+')
    (notSpace : Text.isWhitespace symbol = false) : symbol ∉ text := by
  intro member
  have inside : symbol ∈ Text.trim text := by
    have sameCount := @Search.count_trimMatches _ text Text.isWhitespace _ symbol notSpace
    rw [← List.count_pos_iff] at member ⊢
    exact member.trans_eq sameCount.symm
  rw [portNumber, Option.isSome_map, Option.isSome_iff_exists] at isPort
  rcases isPort with ⟨port, isPort⟩
  rcases of_mem_of_parseUsize (Option.filter_eq_some_iff.mp isPort).1 inside with isDigit | isSign
  · rw [isDigit] at notDigit
    cases notDigit
  · exact notSign isSign

theorem portNumber_eq_none_of_reserved (reserved : text.any (['/', '?', '#'].contains ·) = true) :
    portNumber text = none := by
  rcases List.any_eq_true.mp reserved with ⟨symbol, member, isReserved⟩
  by_contra isPort
  have absent := @not_mem_of_portNumber text (Option.isSome_iff_ne_none.mpr isPort) symbol
  simp only [List.contains_iff_mem, List.mem_cons, List.not_mem_nil, or_false] at isReserved
  rcases isReserved with rfl | rfl | rfl
  · exact absent (by decide) (by decide) (by decide) member
  · exact absent (by decide) (by decide) (by decide) member
  · exact absent (by decide) (by decide) (by decide) member

end Ports

/-- Whether a text is an IP address, possibly with a zone. -/
def isLiteral (ip : IpSyntax) (text : List Char) : Bool :=
  (ip.reprint text).isSome || isIpv6WithZoneId ip text

/-- A host up to the case of its letters, and the port that stands next to it. -/
abbrev Reading := List Char × Option UInt16

def EndpointSpec.reading (spec : EndpointSpec) : Reading :=
  (toAsciiLowercase spec.host, if spec.portWasExplicit then some spec.port else none)

def EggpoolEndpointSpec.reading (spec : EggpoolEndpointSpec) : Reading :=
  (toAsciiLowercase spec.host, if spec.portWasExplicit then some spec.port else none)

section Readings

variable (ip : IpText)

def readHost (ip : IpSyntax) (host : List Char) : Option Reading :=
  (normalizeHost ip host).map fun host => (toAsciiLowercase host, none)

def readParts (ip : IpSyntax) (hostPart portPart : List Char) : Option Reading :=
  (portNumber portPart).bind fun port =>
    (normalizeHost ip hostPart).map fun host => (toAsciiLowercase host, some port)

theorem toAsciiLowercase_toAsciiLowercase (text : List Char) :
    toAsciiLowercase (toAsciiLowercase text) = toAsciiLowercase text := by
  rw [toAsciiLowercase, toAsciiLowercase, List.map_map]
  refine List.map_congr_left ?_
  intro character _
  rw [Function.comp_apply, ← Char.toNat_inj]
  rw [toNat_toLower character.toLower, if_neg]
  rw [toNat_toLower]
  split <;> omega

/-- Both readers of hosts accept the same ones, and read them alike but for the case of names. -/
theorem toOption_eggpoolNormalizeHost (host : List Char) :
    (eggpoolNormalizeHost ip.toIpSyntax host).toOption.map toAsciiLowercase =
      (normalizeHost ip.toIpSyntax host).map toAsciiLowercase := by
  rw [eggpoolNormalizeHost_eq, normalizeHost_eq]
  split
  · rfl
  · split
    · rfl
    · cases ip.reprint (Text.trim host) with
      | some printed => rfl
      | none => exact congrArg some (toAsciiLowercase_toAsciiLowercase _)

theorem toOption_bind {Error Value Result : Type} (first : Except Error Value)
    (next : Value → Except Error Result) :
    (first >>= next).toOption = first.toOption.bind fun value => (next value).toOption := by
  cases first <;> rfl

theorem reading_ofHost (host : List Char) :
    (EndpointSpec.ofHost ip.toIpSyntax host).toOption.map EndpointSpec.reading =
      readHost ip.toIpSyntax host := by
  rw [EndpointSpec.ofHost, readHost]
  cases normalizeHost ip.toIpSyntax host <;> rfl

theorem reading_ofParts (hostPart portPart input : List Char) :
    (EndpointSpec.ofParts ip.toIpSyntax hostPart portPart input).toOption.map
      EndpointSpec.reading = readParts ip.toIpSyntax hostPart portPart := by
  rw [EndpointSpec.ofParts, toOption_bind, toOption_parsePort, readParts]
  cases portNumber portPart with
  | none => rfl
  | some port => cases normalizeHost ip.toIpSyntax hostPart <;> rfl

theorem eggpoolReading_ofHost (host : List Char) :
    (EggpoolEndpointSpec.ofHost ip.toIpSyntax host).toOption.map EggpoolEndpointSpec.reading =
      readHost ip.toIpSyntax host := by
  have lowered : readHost ip.toIpSyntax host =
      ((normalizeHost ip.toIpSyntax host).map toAsciiLowercase).map (·, none) := by
    rw [readHost, Option.map_map]
    rfl
  rw [lowered, ← toOption_eggpoolNormalizeHost, EggpoolEndpointSpec.ofHost, toOption_bind]
  cases eggpoolNormalizeHost ip.toIpSyntax host <;> rfl

theorem eggpoolReading_ofParts (hostPart portPart : List Char) :
    (do
      let host ← eggpoolNormalizeHost ip.toIpSyntax hostPart
      return (⟨host, ← eggpoolParsePort portPart, true⟩ : EggpoolEndpointSpec)).toOption.map
        EggpoolEndpointSpec.reading =
      if Text.trim portPart = portPart then readParts ip.toIpSyntax hostPart portPart
      else none := by
  have lowered : readParts ip.toIpSyntax hostPart portPart = (portNumber portPart).bind fun port =>
      ((normalizeHost ip.toIpSyntax hostPart).map toAsciiLowercase).map (·, some port) := by
    simp only [readParts, Option.map_map]
    rfl
  have ports := toOption_eggpoolParsePort portPart
  rw [lowered, ← toOption_eggpoolNormalizeHost]
  simp only [toOption_bind]
  split
  · rename_i trimmed
    rw [if_pos trimmed] at ports
    rw [ports]
    cases eggpoolNormalizeHost ip.toIpSyntax hostPart <;> cases portNumber portPart <;> rfl
  · rename_i untrimmed
    rw [if_neg untrimmed] at ports
    rw [ports]
    cases eggpoolNormalizeHost ip.toIpSyntax hostPart <;> rfl

theorem eggpoolReading_ofPortAndHost (hostPart portPart : List Char) :
    (do
      let port ← eggpoolParsePort portPart
      return (⟨← eggpoolNormalizeHost ip.toIpSyntax hostPart, port, true⟩ :
        EggpoolEndpointSpec)).toOption.map EggpoolEndpointSpec.reading =
      if Text.trim portPart = portPart then readParts ip.toIpSyntax hostPart portPart
      else none := by
  rw [← eggpoolReading_ofParts]
  simp only [toOption_bind]
  cases (eggpoolParsePort portPart).toOption <;>
    cases (eggpoolNormalizeHost ip.toIpSyntax hostPart).toOption <;> rfl

end Readings

section Parsing

variable (ip : IpText) {text input : List Char}

theorem IpText.isIpv6_nil : ip.isIpv6 [] = false := by
  rw [Bool.eq_false_iff, Ne, ip.isIpv6_iff, ip.reprint_nil]
  simp

theorem isIpv6WithZoneId_nil (ip : IpSyntax) : isIpv6WithZoneId ip [] = false := rfl

theorem IpText.isSome_reprint_of_isIpv6 (isIpv6 : ip.isIpv6 text = true) :
    (ip.reprint text).isSome = true :=
  ((ip.isIpv6_iff text).mp isIpv6).1

/-- A literal with a colon has another one. -/
theorem IpText.two_le_count_of_isLiteral (literal : isLiteral ip.toIpSyntax text = true)
    (colon : ':' ∈ text) : 2 ≤ text.count ':' := by
  rw [isLiteral, Bool.or_eq_true] at literal
  rcases literal with isAddress | zoned
  · exact ip.two_le_count_colon text isAddress colon
  · rcases ip.address_of_zoneId zoned with ⟨address, rest, rfl, isAddress, hasColon⟩
    have enough := ip.two_le_count_colon address isAddress hasColon
    rw [List.count_append]
    omega

theorem rsplitOnceColon_eq_none (noColon : ':' ∉ text) : rsplitOnceColon text = none := by
  rw [rsplitOnceColon, Text.splitOnce_eq_none (by simpa using noColon)]
  rfl

theorem isAmbiguous_eq_false (ip : IpSyntax) (noColon : ':' ∉ text) :
    isAmbiguousBareIpv6WithPort ip text = false := by
  rw [isAmbiguousBareIpv6WithPort, rsplitOnceColon_eq_none noColon]

/-- The address and the port of a bracketed text. -/
def bracketParts (text : List Char) : Option (List Char × List Char) :=
  (Text.splitOnce ']' text).bind fun (before, rest) =>
    match rest with
    | ':' :: portText => some (before.drop 1, portText)
    | _ => none

/-- A bracketed text has an address and a port, or what follows its bracket is no port. -/
theorem bracketParts_cases (text : List Char) :
    bracketParts text = none ∧ (∀ before rest, Text.splitOnce ']' text = some (before, rest) →
      rest.head? ≠ some ':') ∨
    ∃ before portText, Text.splitOnce ']' text = some (before, ':' :: portText) ∧
      bracketParts text = some (before.drop 1, portText) := by
  rw [bracketParts]
  cases Text.splitOnce ']' text with
  | none => exact .inl ⟨rfl, fun _ _ isSplit => nomatch isSplit⟩
  | some parts =>
      rcases parts with ⟨before, rest⟩
      rw [Option.bind_some]
      dsimp only
      split
      · rename_i portText
        exact .inr ⟨before, portText, rfl, rfl⟩
      · rename_i noPort
        refine .inl ⟨rfl, ?_⟩
        rintro _ _ ⟨⟩ isColon
        rcases List.head?_eq_some_iff.mp isColon with ⟨portText, rfl⟩
        exact noPort portText rfl

/-- What stands in brackets has to be an IPv6 address, and the port may have spaces around it. -/
theorem reading_parseBracketedIpv6 (text : List Char) :
    (EndpointSpec.parseBracketedIpv6 ip.toIpSyntax text).toOption.map EndpointSpec.reading =
      (bracketParts text).bind fun (address, portText) =>
        if ip.isIpv6 address || isIpv6WithZoneId ip.toIpSyntax address then
          readParts ip.toIpSyntax address portText
        else none := by
  rw [EndpointSpec.parseBracketedIpv6]
  rcases bracketParts_cases text with ⟨noParts, noPort⟩ | ⟨before, portText, isSplit, parts⟩
  · rw [noParts, Option.bind_none]
    split
    · rfl
    · rename_i before rest isSplit
      dsimp only
      split
      · rfl
      · split
        · exact absurd rfl (noPort before _ isSplit)
        · rfl
  · rw [parts, isSplit, Option.bind_some]
    dsimp only
    generalize before.drop 1 = address
    split
    · rename_i empty
      rw [List.isEmpty_iff.mp empty, ip.isIpv6_nil, isIpv6WithZoneId_nil]
      rfl
    · split
      rotate_left
      · rename_i noPort
        exact absurd rfl (noPort portText)
      rename_i same
      cases same
      split
      · rename_i reserved
        have unread : readParts ip.toIpSyntax address portText = none := by
          rw [readParts, portNumber_eq_none_of_reserved reserved]
          rfl
        rw [unread, ite_self]
        rfl
      · rw [toOption_bind, toOption_parsePort, readParts]
        cases portNumber portText with
        | none => exact (ite_self _).symm
        | some port =>
            cases ip.isIpv6 address <;> cases isIpv6WithZoneId ip.toIpSyntax address <;>
              cases normalizeHost ip.toIpSyntax address <;> rfl

/-- What stands in brackets may be any address, and the port has no spaces around it. -/
theorem reading_parseBracketed (text : List Char) :
    (EggpoolEndpointSpec.parseBracketed ip.toIpSyntax text).toOption.map
      EggpoolEndpointSpec.reading =
      (bracketParts text).bind fun (address, portText) =>
        if isLiteral ip.toIpSyntax address = true ∧ Text.trim portText = portText then
          readParts ip.toIpSyntax address portText
        else none := by
  rw [EggpoolEndpointSpec.parseBracketed]
  rcases bracketParts_cases text with ⟨noParts, noPort⟩ | ⟨before, portText, isSplit, parts⟩
  · rw [noParts, Option.bind_none]
    split
    · rfl
    · rename_i before rest isSplit
      dsimp only
      split
      · exact absurd rfl (noPort before _ isSplit)
      · rfl
  · rw [parts, isSplit, Option.bind_some]
    dsimp only
    generalize before.drop 1 = address
    split
    rotate_left
    · rename_i noPort
      exact absurd rfl (noPort portText)
    rename_i same
    cases same
    split
    · rename_i empty
      rw [List.isEmpty_iff.mp empty, isLiteral, ip.reprint_nil, isIpv6WithZoneId_nil]
      rfl
    · have literal : isLiteral ip.toIpSyntax address =
          !((ip.reprint address).isNone && !isIpv6WithZoneId ip.toIpSyntax address) := by
        rw [isLiteral]
        cases ip.reprint address <;> simp
      rw [literal]
      split
      · rename_i unread
        simp only [unread, Bool.not_true, Bool.false_eq_true, false_and, if_false]
        rfl
      · rename_i readable
        rw [eggpoolReading_ofPortAndHost, Bool.eq_false_of_not_eq_true readable]
        simp

/-- Whether a text is refused before it is looked into. -/
def refused (text : List Char) : Prop :=
  text.isEmpty = true ∨ containsText [':', '/', '/'] text = true ∨ '@' ∈ text

instance (text : List Char) : Decidable (refused text) :=
  inferInstanceAs (Decidable (_ ∨ _ ∨ _))

/-- What `gregg add` reads outside of brackets, the literal first. -/
def readUnbracketed (ip : IpSyntax) (text : List Char) : Option Reading :=
  if isLiteral ip text then
    if isAmbiguousBareIpv6WithPort ip text then none else readHost ip text
  else
    match rsplitOnceColon text with
    | none => readHost ip text
    | some (hostPart, portPart) =>
        if 1 < text.count ':' ∧ '%' ∈ text ∧ isIpv6WithZoneId ip hostPart = false then none
        else readParts ip hostPart portPart

/-- What `gregg eggpool` reads outside of brackets. -/
def eggpoolReadUnbracketed (ip : IpSyntax) (text : List Char) : Option Reading :=
  if isLiteral ip text then
    if isAmbiguousBareIpv6WithPort ip text then none else readHost ip text
  else
    match rsplitOnceColon text with
    | none => readHost ip text
    | some (hostPart, portPart) =>
        if text.count ':' = 1 ∧ Text.trim portPart = portPart then readParts ip hostPart portPart
        else none

theorem reading_parse (input : List Char) :
    (EndpointSpec.parse ip.toIpSyntax input).toOption.map EndpointSpec.reading =
      if refused (Text.trim input) then none
      else if (Text.trim input).head? = some '[' then
        (EndpointSpec.parseBracketedIpv6 ip.toIpSyntax (Text.trim input)).toOption.map
          EndpointSpec.reading
      else if '/' ∈ Text.trim input then none
      else readUnbracketed ip.toIpSyntax (Text.trim input) := by
  rw [EndpointSpec.parse]
  generalize Text.trim input = text
  by_cases isRefused : refused text
  · rw [if_pos isRefused]
    rcases isRefused with empty | scheme | credentials
    · rw [if_pos empty]
      rfl
    · rw [if_pos scheme]
      split <;> rfl
    · rw [if_pos credentials]
      split
      · rfl
      · split
        · rfl
        · split <;> rfl
  rw [if_neg isRefused]
  rw [refused, not_or, not_or] at isRefused
  rw [if_neg isRefused.1, if_neg isRefused.2.1, if_neg isRefused.2.2]
  by_cases bracketed : text.head? = some '['
  · rw [if_neg (fun path => path.1 bracketed), if_pos bracketed, if_pos bracketed]
  by_cases path : '/' ∈ text
  · rw [if_pos ⟨bracketed, path⟩, if_neg bracketed, if_pos path]
    rfl
  rw [if_neg (fun isPath => path isPath.2), if_neg bracketed, if_neg bracketed, if_neg path]
  -- With fewer than two colons a text is an address without any, and nothing else.
  rw [readUnbracketed]
  split
  · rename_i noColons
    have noColon : ':' ∉ text := List.count_eq_zero.mp noColons
    rw [reading_ofHost, rsplitOnceColon_eq_none noColon, isAmbiguous_eq_false _ noColon]
    simp
  · rename_i oneColon
    have colon : ':' ∈ text := List.count_pos_iff.mp (by omega)
    have notLiteral : ¬isLiteral ip.toIpSyntax text = true := fun literal => by
      have := ip.two_le_count_of_isLiteral literal colon
      omega
    rcases exists_rsplitOnceColon colon with ⟨hostPart, portPart, -, isSplit⟩
    rw [if_neg notLiteral, isSplit]
    dsimp only
    rw [reading_ofParts, if_neg (fun more => absurd more.1 (by omega))]
  · rename_i notNone notOne
    have many : 1 < text.count ':' := by
      rcases count : text.count ':' with _ | _ | _
      · exact absurd count notNone
      · exact absurd count notOne
      · omega
    have colon : ':' ∈ text := List.count_pos_iff.mp (by omega)
    rcases exists_rsplitOnceColon colon with ⟨hostPart, portPart, -, isSplit⟩
    change Option.map EndpointSpec.reading (if isLiteral ip.toIpSyntax text = true then _ else _ :
      Except EndpointError EndpointSpec).toOption = _
    split
    · split
      · rfl
      · exact reading_ofHost ip text
    · rw [isSplit]
      dsimp only
      by_cases malformed : '%' ∈ text ∧ isIpv6WithZoneId ip.toIpSyntax hostPart = false
      · rw [if_pos malformed, if_pos ⟨many, malformed⟩]
        rfl
      · rw [if_neg malformed, if_neg (fun isMalformed => malformed isMalformed.2)]
        exact reading_ofParts ip hostPart portPart text

theorem eggpoolReading_parse (input : List Char) :
    (EggpoolEndpointSpec.parse ip.toIpSyntax input).toOption.map EggpoolEndpointSpec.reading =
      if refused (Text.trim input) then none
      else if (Text.trim input).any (['/', '?', '#'].contains ·) then none
      else if (Text.trim input).head? = some '[' then
        (EggpoolEndpointSpec.parseBracketed ip.toIpSyntax (Text.trim input)).toOption.map
          EggpoolEndpointSpec.reading
      else eggpoolReadUnbracketed ip.toIpSyntax (Text.trim input) := by
  rw [EggpoolEndpointSpec.parse]
  generalize Text.trim input = text
  by_cases isRefused : refused text
  · rw [if_pos isRefused]
    rcases isRefused with empty | scheme | credentials
    · rw [if_pos empty]
      rfl
    · rw [if_pos scheme]
      split <;> rfl
    · rw [if_pos credentials]
      split
      · rfl
      · split
        · rfl
        · split <;> rfl
  rw [if_neg isRefused]
  rw [refused, not_or, not_or] at isRefused
  rw [if_neg isRefused.1, if_neg isRefused.2.1]
  by_cases reserved : text.any (['/', '?', '#'].contains ·) = true
  · rw [if_pos reserved, if_pos reserved]
    rfl
  rw [if_neg reserved, if_neg reserved, if_neg isRefused.2.2]
  by_cases bracketed : text.head? = some '['
  · rw [if_pos bracketed, if_pos bracketed]
  rw [if_neg bracketed, if_neg bracketed, eggpoolReadUnbracketed]
  change Option.map EggpoolEndpointSpec.reading (if isLiteral ip.toIpSyntax text = true then _
    else _ : Except EggpoolEndpointError EggpoolEndpointSpec).toOption = _
  split
  · split
    · rfl
    · exact eggpoolReading_ofHost ip text
  · by_cases colon : ':' ∈ text
    · rcases exists_rsplitOnceColon colon with ⟨hostPart, portPart, parts, isSplit⟩
      have positive := List.count_pos_iff.mpr colon
      rw [isSplit]
      dsimp only
      by_cases many : text.count ':' > 1
      · rw [if_pos many, if_neg (fun single => absurd single.1 (by omega))]
        rfl
      · have single : text.count ':' = 1 := by omega
        -- With one colon it is the same where the text is split from.
        have noColon : ':' ∉ hostPart := by
          rw [parts, List.count_append, List.count_cons_self] at single
          exact List.count_eq_zero.mp (by omega)
        have splitOnce : Text.splitOnce ':' text = some (hostPart, portPart) := by
          rw [parts]
          exact Text.splitOnce_append noColon
        rw [if_neg many, splitOnce]
        dsimp only
        rw [eggpoolReading_ofParts]
        simp only [single, true_and]
    · have noColons := List.count_eq_zero.mpr colon
      rw [if_neg (by omega), rsplitOnceColon_eq_none colon, Text.splitOnce_eq_none colon]
      exact eggpoolReading_ofHost ip text

/-- Where both parsers read a text, they read the same. -/
theorem readings_eq {reading eggpoolReading : Reading}
    (reads : (EndpointSpec.parse ip.toIpSyntax input).toOption.map EndpointSpec.reading =
      some reading)
    (eggpoolReads : (EggpoolEndpointSpec.parse ip.toIpSyntax input).toOption.map
      EggpoolEndpointSpec.reading = some eggpoolReading) : reading = eggpoolReading := by
  rw [reading_parse] at reads
  rw [eggpoolReading_parse] at eggpoolReads
  generalize Text.trim input = text at reads eggpoolReads
  split at reads
  · cases reads
  rename_i accepted
  rw [if_neg accepted] at eggpoolReads
  split at eggpoolReads
  · cases eggpoolReads
  split at reads
  · rename_i bracketed
    rw [if_pos bracketed, reading_parseBracketed] at eggpoolReads
    rw [reading_parseBracketedIpv6] at reads
    rcases Option.bind_eq_some_iff.mp reads with ⟨parts, isBracketed, reads⟩
    rw [isBracketed, Option.bind_some] at eggpoolReads
    dsimp only at reads eggpoolReads
    split at reads
    · split at eggpoolReads
      · exact Option.some.inj (reads.symm.trans eggpoolReads)
      · cases eggpoolReads
    · cases reads
  · rename_i unbracketed
    rw [if_neg unbracketed, eggpoolReadUnbracketed] at eggpoolReads
    split at reads
    · cases reads
    rw [readUnbracketed] at reads
    split at reads
    · rename_i literal
      rw [if_pos literal] at eggpoolReads
      exact Option.some.inj (reads.symm.trans eggpoolReads)
    · rename_i notLiteral
      rw [if_neg notLiteral] at eggpoolReads
      cases isSplit : rsplitOnceColon text with
      | none =>
          rw [isSplit] at reads eggpoolReads
          exact Option.some.inj (reads.symm.trans eggpoolReads)
      | some parts =>
          rw [isSplit] at reads eggpoolReads
          dsimp only at reads eggpoolReads
          split at reads
          · cases reads
          · split at eggpoolReads
            · exact Option.some.inj (reads.symm.trans eggpoolReads)
            · cases eggpoolReads

end Parsing

section Literals

variable (ip : IpText) {host zone text : List Char}

/-- A host whose zone is nothing but spaces, which are trimmed away. -/
def BlankZone (ip : IpSyntax) (host : List Char) : Prop :=
  '%' ∈ host ∧ isIpv6WithZoneId ip (Text.trim host) = false

theorem IpText.literal_cases (literal : isLiteral ip.toIpSyntax host = true) :
    ((ip.reprint host).isSome = true ∧ '%' ∉ host) ∨
      ∃ address zone, host = address ++ '%' :: zone ∧ ip.isIpv6 address = true ∧ ':' ∉ zone := by
  rw [isLiteral, Bool.or_eq_true] at literal
  rcases literal with isAddress | zoned
  · exact .inl ⟨isAddress, ip.percent_not_mem isAddress⟩
  · rw [isIpv6WithZoneId_eq, Bool.and_eq_true] at zoned
    exact .inr ((namesZone_eq_true_iff ip).mp zoned.1)

/-- Where the zone ends in spaces, trimming takes them away and nothing else. -/
theorem IpText.trim_zone {address : List Char} (isIpv6 : ip.isIpv6 address = true)
    (zone : List Char) : Text.trim (address ++ '%' :: zone) =
      address ++ '%' :: zone.rdropWhile Text.isWhitespace := by
  have isAddress := ip.isSome_reprint_of_isIpv6 isIpv6
  have front : (address ++ '%' :: zone).dropWhile Text.isWhitespace = address ++ '%' :: zone := by
    rw [Search.dropWhile_eq_self_iff_head?, List.head?_append_of_ne_nil _ (ip.ne_nil isAddress)]
    exact (trim_eq_self_iff.mp (ip.trim_address isAddress)).1
  have notAll : ¬∀ symbol ∈ '%' :: zone, Text.isWhitespace symbol = true := fun all =>
    absurd (all '%' List.mem_cons_self) (by decide)
  rw [Fleet.trim_eq_rdropWhile, front, Search.rdropWhile_append_of_not_all notAll,
    Search.rdropWhile_cons_of_not_all notAll]

/-- A literal is read as a host, but for a zone of spaces. -/
theorem IpText.isSome_normalizeHost (literal : isLiteral ip.toIpSyntax host = true) :
    (normalizeHost ip.toIpSyntax host).isSome = true ↔ ¬BlankZone ip.toIpSyntax host := by
  rw [normalizeHost_eq]
  rcases ip.literal_cases literal with ⟨isAddress, noPercent⟩ |
    ⟨address, zone, rfl, isIpv6, noColon⟩
  · have unzoned : namesZone ip.toIpSyntax host = false := by
      rw [namesZone, Text.splitOnce_eq_none noPercent]
    have nonempty : host.isEmpty = false := List.isEmpty_eq_false_iff.mpr (ip.ne_nil isAddress)
    simp [ip.trim_address isAddress, unzoned, nonempty, BlankZone, noPercent]
  · have noColonEither : ':' ∉ zone.rdropWhile Text.isWhitespace := fun member =>
      noColon ((List.rdropWhile_prefix _ _).subset member)
    have zoned : namesZone ip.toIpSyntax
        (address ++ '%' :: zone.rdropWhile Text.isWhitespace) = true :=
      (namesZone_eq_true_iff ip).mpr ⟨address, _, rfl, isIpv6, noColonEither⟩
    have nonempty : (address ++ '%' :: zone.rdropWhile Text.isWhitespace).isEmpty = false := by
      simp
    rw [BlankZone, ip.trim_zone isIpv6, isIpv6WithZoneId_eq, zoned, nonempty]
    simp [Option.isSome_iff_ne_none]

theorem IpText.normalizeHost_trimmed (literal : isLiteral ip.toIpSyntax host = true)
    (trimmed : Text.trim host = host) : (normalizeHost ip.toIpSyntax host).isSome = true := by
  rw [ip.isSome_normalizeHost literal]
  rintro ⟨percent, notZoned⟩
  rw [trimmed] at notZoned
  rw [isLiteral, notZoned, Bool.or_false] at literal
  exact ip.percent_not_mem literal percent

/-- The characters of a literal outside of its zone are those of addresses. -/
theorem IpText.mem_percent_of_mem (literal : isLiteral ip.toIpSyntax host = true) {symbol : Char}
    (member : symbol ∈ host) (notHex : Text.hexValue symbol = none) (notColon : symbol ≠ ':')
    (notDot : symbol ≠ '.') : '%' ∈ host := by
  rcases ip.literal_cases literal with ⟨isAddress, -⟩ | ⟨address, zone, rfl, -, -⟩
  · rcases ip.alphabet host isAddress symbol member with isHex | isColon | isDot
    · rw [notHex] at isHex
      cases isHex
    · exact absurd isColon notColon
    · exact absurd isDot notDot
  · simp

theorem IpText.head?_ne_bracket (literal : isLiteral ip.toIpSyntax host = true)
    (rest : List Char) : (host ++ rest).head? ≠ some '[' := by
  have notBracket : ∀ address, (ip.reprint address).isSome = true → ∀ rest : List Char,
      (address ++ rest).head? ≠ some '[' := by
    intro address isAddress rest isHead
    rw [List.head?_append_of_ne_nil _ (ip.ne_nil isAddress)] at isHead
    rcases ip.alphabet address isAddress '[' (List.mem_of_mem_head? isHead) with isHex | isColon |
      isDot
    · exact absurd isHex (by decide)
    · cases isColon
    · cases isDot
  rcases ip.literal_cases literal with ⟨isAddress, -⟩ | ⟨address, zone, rfl, isIpv6, -⟩
  · exact notBracket host isAddress rest
  · rw [List.append_assoc]
    exact notBracket address (ip.isSome_reprint_of_isIpv6 isIpv6) _

theorem IpText.literal_ne_nil (literal : isLiteral ip.toIpSyntax host = true) : host ≠ [] := by
  rcases ip.literal_cases literal with ⟨isAddress, -⟩ | ⟨address, zone, rfl, -, -⟩
  · exact ip.ne_nil isAddress
  · simp

/-- An address that may be an address and a port has no zone. -/
theorem percent_not_mem_of_isAmbiguous
    (ambiguous : isAmbiguousBareIpv6WithPort ip.toIpSyntax text = true) : '%' ∉ text := by
  by_cases colon : ':' ∈ text
  · rcases exists_rsplitOnceColon colon with ⟨hostPart, portPart, rfl, isSplit⟩
    rw [isAmbiguousBareIpv6WithPort, isSplit] at ambiguous
    dsimp only at ambiguous
    split at ambiguous
    · cases ambiguous
    · rename_i plain
      rw [Bool.or_eq_true, not_or] at plain
      split at ambiguous
      · cases ambiguous
      · rename_i port parses
        intro member
        rcases List.mem_append.mp member with inHost | inPort
        · exact plain.2 (List.contains_iff_mem.mpr inHost)
        · rcases List.mem_cons.mp inPort with isColon | inPort
          · cases isColon
          · rcases of_mem_of_parseUsize parses inPort with isDigit | isSign
            · exact absurd isDigit (by decide)
            · cases isSign
  · rw [isAmbiguous_eq_false _ colon] at ambiguous
    cases ambiguous

/-- A literal without a colon is an IPv4 address, and one with a colon an IPv6 address. -/
theorem IpText.colon_mem_iff_ipv6 (literal : isLiteral ip.toIpSyntax host = true) :
    ':' ∈ host ↔ (ip.isIpv6 host || isIpv6WithZoneId ip.toIpSyntax host) = true := by
  rw [Bool.or_eq_true]
  rcases ip.literal_cases literal with ⟨isAddress, noPercent⟩ | ⟨address, zone, rfl, isIpv6, -⟩
  · have unzoned : isIpv6WithZoneId ip.toIpSyntax host = false := by
      rw [isIpv6WithZoneId_eq, namesZone, Text.splitOnce_eq_none noPercent]
      rfl
    rw [ip.isIpv6_iff, unzoned]
    simp [isAddress]
  · have colon := ((ip.isIpv6_iff address).mp isIpv6).2
    have noAddress : (ip.reprint (address ++ '%' :: zone)).isSome = false := by
      rw [Bool.eq_false_iff]
      exact fun isAddress => ip.percent_not_mem isAddress (by simp)
    rw [isLiteral, noAddress, Bool.false_or] at literal
    simp [colon, literal]

theorem IpText.colon_of_percent (literal : isLiteral ip.toIpSyntax host = true)
    (percent : '%' ∈ host) : ':' ∈ host := by
  rcases ip.literal_cases literal with ⟨-, noPercent⟩ | ⟨address, zone, rfl, isIpv6, -⟩
  · exact absurd percent noPercent
  · exact List.mem_append_left _ ((ip.isIpv6_iff address).mp isIpv6).2

theorem any_reserved_iff : text.any (['/', '?', '#'].contains ·) = true ↔
    '/' ∈ text ∨ '?' ∈ text ∨ '#' ∈ text := by
  rw [List.any_eq_true]
  constructor
  · rintro ⟨symbol, member, isReserved⟩
    simp only [List.contains_iff_mem, List.mem_cons, List.not_mem_nil, or_false] at isReserved
    rcases isReserved with rfl | rfl | rfl
    · exact .inl member
    · exact .inr (.inl member)
    · exact .inr (.inr member)
  · rintro (member | member | member) <;> exact ⟨_, member, by decide⟩

theorem not_refused (nonempty : text ≠ []) (scheme : containsText [':', '/', '/'] text = false)
    (noAt : '@' ∉ text) : ¬refused text := by
  rintro (empty | isScheme | credentials)
  · exact nonempty (List.isEmpty_iff.mp empty)
  · rw [scheme] at isScheme
    cases isScheme
  · exact noAt credentials

/-- Without a slash right after a colon there is no scheme. -/
theorem containsText_scheme_of_isChain
    (chain : text.IsChain fun first second => ¬(first = ':' ∧ second = '/')) :
    containsText [':', '/', '/'] text = false := by
  rw [containsText, List.any_eq_false]
  intro tail isTail isPrefix
  rcases List.isPrefixOf_iff_prefix.mp isPrefix with ⟨rest, rfl⟩
  have inner := chain.suffix ((List.mem_tails _ _).mp isTail)
  exact (List.isChain_cons_cons.mp inner).1 ⟨rfl, rfl⟩

theorem isChain_of_not_mem (either : ':' ∉ text ∨ '/' ∉ text) :
    text.IsChain fun first second => ¬(first = ':' ∧ second = '/') := by
  induction text with
  | nil => exact .nil
  | cons symbol text ih =>
      simp only [List.mem_cons, not_or] at either
      refine List.isChain_cons.mpr ⟨?_, ih (either.imp And.right And.right)⟩
      rintro next isHead ⟨rfl, rfl⟩
      rcases either with noColon | noSlash
      · exact noColon.1 rfl
      · exact noSlash.2 (List.mem_of_mem_head? isHead)

/-- No scheme is read in a bracketed literal, also where its zone has slashes. -/
theorem IpText.containsText_scheme_bracketed (literal : isLiteral ip.toIpSyntax host = true)
    (noSlash : '/' ∉ text) :
    containsText [':', '/', '/'] ('[' :: host ++ ']' :: ':' :: text) = false := by
  have plain : ∀ text : List Char, '/' ∉ text →
      text.IsChain fun first second => ¬(first = ':' ∧ second = '/') :=
    fun _ absent => isChain_of_not_mem (.inr absent)
  have hostChain : host.IsChain fun first second => ¬(first = ':' ∧ second = '/') := by
    rcases ip.literal_cases literal with ⟨isAddress, noPercent⟩ |
      ⟨address, zone, rfl, isIpv6, noColon⟩
    · refine plain host fun slash => noPercent ?_
      exact ip.mem_percent_of_mem literal slash (by decide) (by decide) (by decide)
    · have outside : '/' ∉ address := fun member => by
        rcases ip.alphabet address (ip.isSome_reprint_of_isIpv6 isIpv6) '/' member with isHex |
          isColon | isDot
        · exact absurd isHex (by decide)
        · cases isColon
        · cases isDot
      have zoneChain := @isChain_of_not_mem ('%' :: zone) (.inl (by simpa using noColon))
      refine (plain address outside).append zoneChain ?_
      rintro last - first isFirst ⟨-, rfl⟩
      cases isFirst
  apply containsText_scheme_of_isChain
  refine (hostChain.cons ?_).append (plain _ (by simpa using noSlash)) ?_
  · rintro first - ⟨isColon, -⟩
    cases isColon
  · rintro last - first isFirst ⟨-, rfl⟩
    cases isFirst

end Literals

/-- What both parsers say of a text: the same host up to case and the same explicit port. -/
def SameReading (ip : IpSyntax) (input : List Char) : Prop :=
  ∀ spec eggpoolSpec, EndpointSpec.parse ip input = .ok spec →
    EggpoolEndpointSpec.parse ip input = .ok eggpoolSpec →
    toAsciiLowercase spec.host = toAsciiLowercase eggpoolSpec.host ∧
      spec.portWasExplicit = eggpoolSpec.portWasExplicit ∧
      (spec.portWasExplicit = true → spec.port = eggpoolSpec.port)

/-- A text is accepted by both parsers or by neither. -/
def SameVerdict (ip : IpSyntax) (input : List Char) : Prop :=
  (EndpointSpec.parse ip input).isOk = (EggpoolEndpointSpec.parse ip input).isOk

/-- A spelled IP literal, bare or in brackets, with a port or without one. -/
structure LiteralText (ip : IpSyntax) where
  host : List Char
  bracketed : Bool
  port : Option (List Char)
  isLiteral : isLiteral ip host = true
  portSymbols : ∀ text ∈ port, ∀ symbol ∈ text,
    symbol.isDigit = true ∨ symbol = '+' ∨ Text.isWhitespace symbol = true

namespace LiteralText

def spelled {ip : IpSyntax} (literal : LiteralText ip) : List Char :=
  let front := if literal.bracketed then '[' :: literal.host ++ [']'] else literal.host
  match literal.port with
  | none => front
  | some port => front ++ ':' :: port

/-- The spellings that both parsers decide alike. -/
def Shared {ip : IpSyntax} (literal : LiteralText ip) : Prop :=
  match literal.bracketed, literal.port with
  | true, none => True
  | false, none =>
      ('?' ∉ literal.host ∧ '#' ∉ literal.host) ∨ '/' ∈ literal.host ∨ '@' ∈ literal.host
  | false, some port => portNumber port = none ∨
      if ':' ∈ literal.host then
        (ip.reprint (literal.host ++ ':' :: port)).isSome = true ∨
          '/' ∈ literal.host ∨ '@' ∈ literal.host ∨ BlankZone ip literal.host
      else Text.trim port = port
  | true, some port => portNumber port = none ∨
      if ':' ∈ literal.host then
        (Text.trim port = port ∧ '/' ∉ literal.host ∧ '?' ∉ literal.host ∧ '#' ∉ literal.host) ∨
          '@' ∈ literal.host ∨ ']' ∈ literal.host ∨ BlankZone ip literal.host
      else Text.trim port ≠ port

end LiteralText

section Verdicts

variable (ip : IpText) {host port text input : List Char}

theorem sameReading (input : List Char) : SameReading ip.toIpSyntax input := by
  intro spec eggpoolSpec parses eggpoolParses
  have same : spec.reading = eggpoolSpec.reading :=
    readings_eq ip (by rw [parses]; rfl) (by rw [eggpoolParses]; rfl)
  rw [EndpointSpec.reading, EggpoolEndpointSpec.reading, Prod.mk.injEq] at same
  refine ⟨same.1, ?_⟩
  cases explicit : spec.portWasExplicit <;> cases eggpoolExplicit : eggpoolSpec.portWasExplicit <;>
    simp [explicit, eggpoolExplicit] at same ⊢
  exact same.2

theorem sameVerdict_iff : SameVerdict ip.toIpSyntax input ↔
    ((EndpointSpec.parse ip.toIpSyntax input).toOption.map EndpointSpec.reading).isSome =
      ((EggpoolEndpointSpec.parse ip.toIpSyntax input).toOption.map
        EggpoolEndpointSpec.reading).isSome := by
  rw [SameVerdict, Option.isSome_map, Option.isSome_map]
  cases EndpointSpec.parse ip.toIpSyntax input <;>
    cases EggpoolEndpointSpec.parse ip.toIpSyntax input <;> rfl

theorem isSome_readParts : (readParts ip.toIpSyntax host port).isSome = true ↔
    (portNumber port).isSome = true ∧ (normalizeHost ip.toIpSyntax host).isSome = true := by
  rw [readParts]
  cases portNumber port <;> simp

/-- Both parsers read a literal the same way once they have found it. -/
theorem eggpoolReadUnbracketed_of_isLiteral (literal : isLiteral ip.toIpSyntax text = true) :
    eggpoolReadUnbracketed ip.toIpSyntax text = readUnbracketed ip.toIpSyntax text := by
  rw [eggpoolReadUnbracketed, readUnbracketed, if_pos literal, if_pos literal]

theorem sameVerdict_host (literal : isLiteral ip.toIpSyntax host = true)
    (spells : Text.trim input = host) : SameVerdict ip.toIpSyntax input ↔
      ('?' ∉ host ∧ '#' ∉ host) ∨ '/' ∈ host ∨ '@' ∈ host := by
  rw [sameVerdict_iff, reading_parse, eggpoolReading_parse, spells]
  have unbracketed : host.head? ≠ some '[' := by
    simpa using ip.head?_ne_bracket literal []
  rw [if_neg unbracketed, if_neg unbracketed]
  by_cases credentials : '@' ∈ host
  · have isRefused : refused host := .inr (.inr credentials)
    simp [isRefused, credentials]
  by_cases path : '/' ∈ host
  · have reserved : host.any (['/', '?', '#'].contains ·) = true := any_reserved_iff.mpr (.inl path)
    rw [if_pos path, if_pos reserved]
    simp [path]
  have accepted := not_refused (ip.literal_ne_nil literal) (containsText_scheme_eq_false path)
    credentials
  rw [if_neg accepted, if_neg accepted, if_neg path, eggpoolReadUnbracketed_of_isLiteral ip literal]
  by_cases reserved : '?' ∈ host ∨ '#' ∈ host
  · have percent : '%' ∈ host := by
      rcases reserved with member | member
      · exact ip.mem_percent_of_mem literal member (by decide) (by decide) (by decide)
      · exact ip.mem_percent_of_mem literal member (by decide) (by decide) (by decide)
    have unambiguous : ¬isAmbiguousBareIpv6WithPort ip.toIpSyntax host = true := fun ambiguous =>
      percent_not_mem_of_isAmbiguous ip ambiguous percent
    have trimmed : Text.trim host = host := by rw [← spells, Fleet.trim_trim]
    have normalizes := ip.normalizeHost_trimmed literal trimmed
    rw [if_pos (any_reserved_iff.mpr (.inr reserved)), readUnbracketed, if_pos literal,
      if_neg unambiguous, readHost, Option.isSome_map, normalizes]
    simp only [Option.isSome_none, Bool.true_eq_false, path, credentials, or_false, false_iff]
    rintro ⟨noQuestion, noHash⟩
    exact reserved.elim noQuestion noHash
  · rw [if_neg]
    · rw [not_or] at reserved
      simp [reserved]
    · rw [any_reserved_iff]
      exact fun either => either.elim path reserved

theorem not_mem_of_portSymbols {symbol : Char}
    (symbols : ∀ symbol ∈ port,
      symbol.isDigit = true ∨ symbol = '+' ∨ Text.isWhitespace symbol = true)
    (notDigit : symbol.isDigit = false) (notSign : symbol ≠ '+')
    (notSpace : Text.isWhitespace symbol = false) : symbol ∉ port := by
  intro member
  rcases symbols symbol member with isDigit | isSign | isSpace
  · rw [notDigit] at isDigit
    cases isDigit
  · exact notSign isSign
  · rw [notSpace] at isSpace
    cases isSpace

/-- A literal with a port after it is a literal only when the whole of it is an address. -/
theorem IpText.reprint_of_isLiteral_port (literal : isLiteral ip.toIpSyntax host = true)
    (noPercent : '%' ∉ port) (whole : isLiteral ip.toIpSyntax (host ++ ':' :: port) = true) :
    (ip.reprint (host ++ ':' :: port)).isSome = true ∧ '%' ∉ host ++ ':' :: port := by
  rcases ip.literal_cases whole with isAddress | ⟨address, zone, parts, wholeIpv6, noColon⟩
  · exact isAddress
  · have percent : '%' ∈ host := by
      have member : '%' ∈ host ++ ':' :: port := by
        rw [parts]
        exact List.mem_append_right _ List.mem_cons_self
      simpa [noPercent] using member
    rcases ip.literal_cases literal with ⟨-, absent⟩ | ⟨front, back, rfl, isIpv6, -⟩
    · exact absurd percent absent
    · -- The zone of the host would reach past the colon.
      exfalso
      have first := @Text.splitOnce_append '%' front (back ++ ':' :: port)
        (ip.percent_not_mem (ip.isSome_reprint_of_isIpv6 isIpv6))
      have second := @Text.splitOnce_append '%' address zone
        (ip.percent_not_mem (ip.isSome_reprint_of_isIpv6 wholeIpv6))
      rw [← parts, List.append_assoc, List.cons_append, first] at second
      cases second
      exact noColon (by simp)

theorem sameVerdict_host_port (literal : isLiteral ip.toIpSyntax host = true)
    (symbols : ∀ symbol ∈ port,
      symbol.isDigit = true ∨ symbol = '+' ∨ Text.isWhitespace symbol = true)
    (spells : Text.trim input = host ++ ':' :: port) : SameVerdict ip.toIpSyntax input ↔
      portNumber port = none ∨ if ':' ∈ host then
        (ip.reprint (host ++ ':' :: port)).isSome = true ∨ '/' ∈ host ∨ '@' ∈ host ∨
          BlankZone ip.toIpSyntax host
      else Text.trim port = port := by
  have absent : ∀ symbol : Char, symbol.isDigit = false → symbol ≠ '+' →
      Text.isWhitespace symbol = false → symbol ∉ port := fun _ => not_mem_of_portSymbols symbols
  have noColon := absent ':' (by decide) (by decide) (by decide)
  have noPercent := absent '%' (by decide) (by decide) (by decide)
  have noSlash := absent '/' (by decide) (by decide) (by decide)
  have noAt := absent '@' (by decide) (by decide) (by decide)
  have noQuestion := absent '?' (by decide) (by decide) (by decide)
  have noHash := absent '#' (by decide) (by decide) (by decide)
  have zoneColon : ∀ symbol ∈ host, Text.hexValue symbol = none → symbol ≠ ':' → symbol ≠ '.' →
      ':' ∈ host := fun symbol member notHex notColon notDot =>
    ip.colon_of_percent literal (ip.mem_percent_of_mem literal member notHex notColon notDot)
  rw [sameVerdict_iff, reading_parse, eggpoolReading_parse, spells]
  rw [if_neg (ip.head?_ne_bracket literal _), if_neg (ip.head?_ne_bracket literal _)]
  by_cases credentials : '@' ∈ host
  · have isRefused : refused (host ++ ':' :: port) :=
      .inr (.inr (List.mem_append_left _ credentials))
    have colon := zoneColon '@' credentials (by decide) (by decide) (by decide)
    simp [isRefused, credentials, colon]
  by_cases path : '/' ∈ host
  · have inText : '/' ∈ host ++ ':' :: port := List.mem_append_left _ path
    have reserved := any_reserved_iff.mpr (.inl inText)
    have colon := zoneColon '/' path (by decide) (by decide) (by decide)
    rw [if_pos inText, if_pos reserved]
    simp [path, colon]
  have noPath : '/' ∉ host ++ ':' :: port := by simp [path, noSlash]
  have noCredentials : '@' ∉ host ++ ':' :: port := by simp [credentials, noAt]
  have accepted := not_refused (by simp) (containsText_scheme_eq_false noPath) noCredentials
  rw [if_neg accepted, if_neg accepted, if_neg noPath]
  have reservedInHost : (host ++ ':' :: port).any (['/', '?', '#'].contains ·) = true →
      '%' ∈ host := by
    rw [any_reserved_iff]
    rintro (member | member | member)
    · exact absurd member noPath
    · exact ip.mem_percent_of_mem literal (by simpa [noQuestion] using member) (by decide)
        (by decide) (by decide)
    · exact ip.mem_percent_of_mem literal (by simpa [noHash] using member) (by decide)
        (by decide) (by decide)
  by_cases whole : isLiteral ip.toIpSyntax (host ++ ':' :: port) = true
  · rcases ip.reprint_of_isLiteral_port literal noPercent whole with ⟨isAddress, wholePercent⟩
    have unreserved : ¬(host ++ ':' :: port).any (['/', '?', '#'].contains ·) = true :=
      fun reserved => wholePercent (List.mem_append_left _ (reservedInHost reserved))
    have colon : ':' ∈ host := by
      have enough := ip.two_le_count_colon _ isAddress (by simp)
      rw [List.count_append, List.count_cons_self, List.count_eq_zero.mpr noColon] at enough
      exact List.count_pos_iff.mp (by omega)
    rw [if_neg unreserved, eggpoolReadUnbracketed_of_isLiteral ip whole]
    simp [colon, isAddress]
  rw [eggpoolReadUnbracketed, readUnbracketed, if_neg whole, if_neg whole,
    rsplitOnceColon_append host noColon]
  dsimp only
  have zoned : ¬(1 < (host ++ ':' :: port).count ':' ∧ '%' ∈ host ++ ':' :: port ∧
      isIpv6WithZoneId ip.toIpSyntax host = false) := by
    rintro ⟨-, member, unzoned⟩
    have percent : '%' ∈ host := by simpa [noPercent] using member
    rw [isLiteral, unzoned, Bool.or_false] at literal
    exact ip.percent_not_mem literal percent
  rw [if_neg zoned]
  cases isPort : portNumber port with
  | none =>
      have unread : readParts ip.toIpSyntax host port = none := by
        rw [readParts, isPort]
        rfl
      simp [unread]
  | some number =>
      have readable : (readParts ip.toIpSyntax host port).isSome = true ↔
          ¬BlankZone ip.toIpSyntax host := by
        rw [isSome_readParts, ip.isSome_normalizeHost literal, isPort]
        simp
      by_cases colon : ':' ∈ host
      · -- More than one colon: only the parser of systems reads a host and a port.
        have enough := ip.two_le_count_of_isLiteral literal colon
        have many : ¬((host ++ ':' :: port).count ':' = 1 ∧ Text.trim port = port) := by
          rintro ⟨single, -⟩
          rw [List.count_append] at single
          omega
        have notAddress : ¬(ip.reprint (host ++ ':' :: port)).isSome = true := fun isAddress =>
          whole (by rw [isLiteral, isAddress]; rfl)
        rw [if_neg many, ite_self, if_pos colon, Option.isSome_none, Bool.eq_false_iff, Ne,
          readable]
        simp [path, credentials, notAddress]
      · have unreserved : ¬(host ++ ':' :: port).any (['/', '?', '#'].contains ·) = true :=
          fun reserved => colon (ip.colon_of_percent literal (reservedInHost reserved))
        have single : (host ++ ':' :: port).count ':' = 1 := by
          rw [List.count_append, List.count_cons_self, List.count_eq_zero.mpr noColon,
            List.count_eq_zero.mpr colon]
        have reads : (readParts ip.toIpSyntax host port).isSome = true := by
          rw [readable]
          exact fun blank => colon (ip.colon_of_percent literal blank.1)
        rw [if_neg unreserved, if_neg colon, reads]
        by_cases trimmed : Text.trim port = port
        · simp [single, trimmed, reads]
        · simp [trimmed]

theorem bracketParts_of_mem (literal : isLiteral ip.toIpSyntax host = true) (close : ']' ∈ host)
    (rest : List Char) : bracketParts ('[' :: host ++ ']' :: rest) = none := by
  rcases ip.literal_cases literal with ⟨isAddress, noPercent⟩ |
    ⟨address, zone, rfl, isIpv6, noColon⟩
  · exact absurd (ip.mem_percent_of_mem literal close (by decide) (by decide) (by decide)) noPercent
  · have outside : ']' ∉ address := fun member => by
      rcases ip.alphabet address (ip.isSome_reprint_of_isIpv6 isIpv6) ']' member with isHex |
        isColon | isDot
      · exact absurd isHex (by decide)
      · cases isColon
      · cases isDot
    have inside : ']' ∈ zone := by simpa [outside] using close
    rcases List.eq_append_cons_of_mem inside with ⟨before, after, rfl, first⟩
    have parts : '[' :: (address ++ '%' :: (before ++ ']' :: after)) ++ ']' :: rest =
        ('[' :: address ++ '%' :: before) ++ ']' :: (after ++ ']' :: rest) := by simp
    have isSplit : Text.splitOnce ']' ('[' :: (address ++ '%' :: (before ++ ']' :: after)) ++
        ']' :: rest) = some ('[' :: address ++ '%' :: before, after ++ ']' :: rest) := by
      rw [parts]
      exact Text.splitOnce_append (by simp [outside, first])
    rcases bracketParts_cases ('[' :: (address ++ '%' :: (before ++ ']' :: after)) ++ ']' :: rest)
      with ⟨noParts, -⟩ | ⟨front, portText, isPort, -⟩
    · exact noParts
    · -- What follows the first bracket begins in the zone, which has no colon.
      exfalso
      rw [isSplit] at isPort
      have tails : after ++ ']' :: rest = ':' :: portText :=
        (Prod.mk.inj (Option.some.inj isPort)).2
      rcases after with _ | ⟨symbol, after⟩
      · cases (List.cons.inj tails).1
      · have isColon : symbol = ':' := (List.cons.inj tails).1
        subst isColon
        exact noColon (by simp)

theorem bracketParts_of_not_mem (close : ']' ∉ host) :
    bracketParts ('[' :: host ++ [']']) = none ∧
      bracketParts ('[' :: host ++ ']' :: ':' :: port) = some (host, port) := by
  have front : ']' ∉ '[' :: host := by simp [close]
  constructor
  · rw [bracketParts, Text.splitOnce_append front]
    rfl
  · rw [bracketParts, Text.splitOnce_append front]
    rfl

theorem sameVerdict_bracketed (literal : isLiteral ip.toIpSyntax host = true)
    (spells : Text.trim input = '[' :: host ++ [']']) : SameVerdict ip.toIpSyntax input := by
  have noParts : bracketParts ('[' :: host ++ [']']) = none := by
    by_cases close : ']' ∈ host
    · exact bracketParts_of_mem ip literal close []
    · exact (@bracketParts_of_not_mem host [] close).1
  rw [sameVerdict_iff, reading_parse, eggpoolReading_parse, spells, reading_parseBracketedIpv6,
    reading_parseBracketed, noParts]
  simp

theorem sameVerdict_bracketed_port (literal : isLiteral ip.toIpSyntax host = true)
    (symbols : ∀ symbol ∈ port,
      symbol.isDigit = true ∨ symbol = '+' ∨ Text.isWhitespace symbol = true)
    (spells : Text.trim input = '[' :: host ++ ']' :: ':' :: port) :
    SameVerdict ip.toIpSyntax input ↔
      portNumber port = none ∨ if ':' ∈ host then
        (Text.trim port = port ∧ '/' ∉ host ∧ '?' ∉ host ∧ '#' ∉ host) ∨ '@' ∈ host ∨ ']' ∈ host ∨
          BlankZone ip.toIpSyntax host
      else Text.trim port ≠ port := by
  have absent : ∀ symbol : Char, symbol.isDigit = false → symbol ≠ '+' →
      Text.isWhitespace symbol = false → symbol ∉ port := fun _ => not_mem_of_portSymbols symbols
  have noSlash := absent '/' (by decide) (by decide) (by decide)
  have noAt := absent '@' (by decide) (by decide) (by decide)
  have noQuestion := absent '?' (by decide) (by decide) (by decide)
  have noHash := absent '#' (by decide) (by decide) (by decide)
  have zoneColon : ∀ symbol ∈ host, Text.hexValue symbol = none → symbol ≠ ':' → symbol ≠ '.' →
      ':' ∈ host := fun symbol member notHex notColon notDot =>
    ip.colon_of_percent literal (ip.mem_percent_of_mem literal member notHex notColon notDot)
  rw [sameVerdict_iff, reading_parse, eggpoolReading_parse, spells]
  by_cases credentials : '@' ∈ host
  · have isRefused : refused ('[' :: host ++ ']' :: ':' :: port) :=
      .inr (.inr (by simp [credentials]))
    have colon := zoneColon '@' credentials (by decide) (by decide) (by decide)
    rw [if_pos isRefused, if_pos isRefused]
    simp [credentials, colon]
  have accepted : ¬refused ('[' :: host ++ ']' :: ':' :: port) :=
    not_refused (by simp) (ip.containsText_scheme_bracketed literal noSlash)
      (by simp [credentials, noAt])
  have reservedText : ('[' :: host ++ ']' :: ':' :: port).any (['/', '?', '#'].contains ·) = true ↔
      '/' ∈ host ∨ '?' ∈ host ∨ '#' ∈ host := by
    rw [any_reserved_iff]
    simp [noSlash, noQuestion, noHash]
  have isBracket : ('[' :: host ++ ']' :: ':' :: port).head? = some '[' := rfl
  rw [if_neg accepted, if_neg accepted, if_pos isBracket, if_pos isBracket,
    reading_parseBracketedIpv6, reading_parseBracketed]
  by_cases close : ']' ∈ host
  · have colon := zoneColon ']' close (by decide) (by decide) (by decide)
    rw [bracketParts_of_mem ip literal close]
    simp [close, colon]
  rw [(@bracketParts_of_not_mem host port close).2, Option.bind_some, Option.bind_some]
  dsimp only
  cases isPort : portNumber port with
  | none =>
      have unread : readParts ip.toIpSyntax host port = none := by
        rw [readParts, isPort]
        rfl
      simp [unread]
  | some number =>
      have readable : (readParts ip.toIpSyntax host port).isSome = true ↔
          ¬BlankZone ip.toIpSyntax host := by
        rw [isSome_readParts, ip.isSome_normalizeHost literal, isPort]
        simp
      by_cases colon : ':' ∈ host
      · rw [if_pos ((ip.colon_mem_iff_ipv6 literal).mp colon), if_pos colon]
        by_cases blank : BlankZone ip.toIpSyntax host
        · have unread : readParts ip.toIpSyntax host port = none := by
            rw [← Option.not_isSome_iff_eq_none, readable]
            exact not_not_intro blank
          simp [unread, blank]
        · have reads := readable.mpr blank
          by_cases reserved : '/' ∈ host ∨ '?' ∈ host ∨ '#' ∈ host
          · rw [if_pos (reservedText.mpr reserved), reads]
            simp only [Option.isSome_none, Bool.true_eq_false, false_iff]
            rintro (isPort | ⟨-, noSlash, noQuestion, noHash⟩ | isAt | isClose | isBlank)
            · cases isPort
            · rcases reserved with member | member | member
              · exact noSlash member
              · exact noQuestion member
              · exact noHash member
            · exact credentials isAt
            · exact close isClose
            · exact blank isBlank
          · rw [if_neg (fun isReserved => reserved (reservedText.mp isReserved)), reads]
            rw [not_or, not_or] at reserved
            by_cases trimmed : Text.trim port = port
            · simp [literal, trimmed, reads, reserved]
            · simp [trimmed, credentials, close, blank]
      · have unzoned : ¬(ip.isIpv6 host || isIpv6WithZoneId ip.toIpSyntax host) = true :=
          fun isIpv6 => colon ((ip.colon_mem_iff_ipv6 literal).mpr isIpv6)
        have unreserved : ¬('/' ∈ host ∨ '?' ∈ host ∨ '#' ∈ host) := by
          rintro (member | member | member)
          · exact colon (zoneColon '/' member (by decide) (by decide) (by decide))
          · exact colon (zoneColon '?' member (by decide) (by decide) (by decide))
          · exact colon (zoneColon '#' member (by decide) (by decide) (by decide))
        have reads : (readParts ip.toIpSyntax host port).isSome = true := by
          rw [readable]
          exact fun blank => colon (ip.colon_of_percent literal blank.1)
        rw [if_neg unzoned, if_neg (fun isReserved => unreserved (reservedText.mp isReserved)),
          if_neg colon]
        by_cases trimmed : Text.trim port = port
        · simp [literal, trimmed, reads]
        · simp [trimmed]

end Verdicts

/-- Where both parsers accept a text they read the same, and they decide a literal alike exactly
when its spelling is a shared one. -/
theorem parsers_agree_iff (ip : IpText) (input : List Char) : SameReading ip.toIpSyntax input ∧
    ∀ literal : LiteralText ip.toIpSyntax, Text.trim input = literal.spelled →
      (SameVerdict ip.toIpSyntax input ↔ literal.Shared) := by
  refine ⟨sameReading ip input, ?_⟩
  rintro ⟨host, bracketed, port, literal, symbols⟩ spells
  rw [LiteralText.spelled] at spells
  rw [LiteralText.Shared]
  cases bracketed <;> cases port <;> dsimp only at symbols spells ⊢
  · exact sameVerdict_host ip literal spells
  · rename_i port
    exact sameVerdict_host_port ip literal (symbols port rfl) spells
  · exact iff_true_intro (sameVerdict_bracketed ip literal spells)
  · rename_i port
    refine sameVerdict_bracketed_port ip literal (symbols port rfl) ?_
    rw [spells]
    simp

/-- `::1%eth0:80`. -/
def zonedWithPort : LiteralText IpText.loopback.toIpSyntax where
  host := "::1%eth0".toList
  bracketed := false
  port := some "80".toList
  isLiteral := by decide
  portSymbols := by
    rintro _ ⟨⟩
    exact List.all_iff_forall_prop.mp (by decide)

/-- `[::1%eth0]:80`. -/
def bracketedWithPort : LiteralText IpText.loopback.toIpSyntax :=
  { zonedWithPort with bracketed := true }

theorem parsers_agree_iff_bracketed :
    Text.trim "[::1%eth0]:80".toList = bracketedWithPort.spelled ∧ bracketedWithPort.Shared ∧
      SameVerdict IpText.loopback.toIpSyntax "[::1%eth0]:80".toList := by
  have spells : Text.trim "[::1%eth0]:80".toList = bracketedWithPort.spelled := by decide
  have shared : bracketedWithPort.Shared := .inr (.inl (by decide))
  exact ⟨spells, shared, ((parsers_agree_iff IpText.loopback _).2 _ spells).mpr shared⟩

/-- Outside of brackets only `gregg add` reads a port after a zone. -/
theorem zonedWithPort_disagrees :
    Text.trim "::1%eth0:80".toList = zonedWithPort.spelled ∧
      EndpointSpec.parse IpText.loopback.toIpSyntax "::1%eth0:80".toList =
        .ok ⟨"::1%25eth0".toList, 80, true⟩ ∧
      EggpoolEndpointSpec.parse IpText.loopback.toIpSyntax "::1%eth0:80".toList =
        .error .malformedBrackets ∧
      ¬SameVerdict IpText.loopback.toIpSyntax "::1%eth0:80".toList := by
  have accepted : EndpointSpec.parse IpText.loopback.toIpSyntax "::1%eth0:80".toList =
      .ok ⟨"::1%25eth0".toList, 80, true⟩ := by decide
  have rejected : EggpoolEndpointSpec.parse IpText.loopback.toIpSyntax "::1%eth0:80".toList =
      .error .malformedBrackets := by decide
  refine ⟨by decide, accepted, rejected, ?_⟩
  rw [SameVerdict, accepted, rejected]
  decide

end Gregg.ConfigFile
