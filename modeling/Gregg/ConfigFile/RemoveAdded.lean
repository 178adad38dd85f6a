import Gregg.ConfigFile.Reread

/-!
# Removing what was added

`gregg add` stores the text before the last colon as a host, also where that text has a colon of its
own and is no address. Such a host is read back as a host and a port, or not at all; every other
host is found again by its own text and by its displayed address.
-/

namespace Gregg.ConfigFile

open Clientd (SystemEntry)
open Fleet (IpSyntax normalizeHost containsText toAsciiLowercase eqIgnoreAsciiCase)

section Ports

theorem toList_toString_port (port : UInt16) :
    (toString port).toList = Nat.toDigits 10 port.toNat :=
  Nat.toList_repr

theorem isDigit_of_mem_port {port : UInt16} {character : Char}
    (member : character ∈ (toString port).toList) : character.isDigit = true := by
  rw [toList_toString_port] at member
  exact Nat.isDigit_of_mem_toDigits (by decide) (by decide) member

theorem not_mem_port (character : Char) (notDigit : character.isDigit = false) (port : UInt16) :
    character ∉ (toString port).toList := by
  intro member
  rw [isDigit_of_mem_port member] at notDigit
  cases notDigit

theorem port_ne_nil (port : UInt16) : (toString port).toList ≠ [] := by
  rw [toList_toString_port]
  exact Nat.toDigits_ne_nil

theorem isWhitespace_of_isDigit {character : Char} (isDigit : character.isDigit = true) :
    Text.isWhitespace character = false := by
  have range : 48 ≤ character.toNat ∧ character.toNat ≤ 57 := by
    simpa [Char.isDigit, UInt32.le_iff_toNat_le] using isDigit
  simp only [Text.isWhitespace, Bool.or_eq_false_iff, Bool.and_eq_false_imp, decide_eq_true_eq,
    decide_eq_false_iff_not, beq_eq_false_iff_ne]
  omega

theorem trim_port (port : UInt16) :
    Text.trim (toString port).toList = (toString port).toList := by
  rw [trim_eq_self_iff]
  constructor
  · intro character isHead
    exact isWhitespace_of_isDigit (isDigit_of_mem_port (List.mem_of_mem_head? isHead))
  · intro character isLast
    exact isWhitespace_of_isDigit (isDigit_of_mem_port (List.mem_of_mem_getLast? isLast))

/-- A displayed port is read back. -/
theorem parsePort_toString {port : UInt16} (positive : port ≠ 0) (input : List Char) :
    parsePort (toString port).toList input = .ok port := by
  have bound := port.toNat_lt
  have parsed : Text.parseUsize (toString port).toList = some port.toNat := by
    rw [Text.parseUsize_eq_some_iff]
    refine ⟨_, .inl (toList_toString_port port), Nat.toDigits_ne_nil, ?_⟩
    apply Text.parseDigits_toDigits
    rw [u64Max]
    omega
  have nonempty : (toString port).toList.isEmpty = false :=
    List.isEmpty_eq_false_iff.mpr (port_ne_nil port)
  have nonzero : port.toNat ≠ 0 := fun zero => positive (UInt16.toNat_inj.mp zero)
  have fits : ¬port.toNat > 65535 := by omega
  simp only [parsePort, trim_port, nonempty, parsed, nonzero, fits, Bool.false_eq_true, if_false,
    UInt16.ofNat_toNat]

end Ports

section Hosts

variable (ip : IpText) {host normalized : List Char}

theorem NormalHost.ne_nil (normal : NormalHost ip.toIpSyntax host) : host ≠ [] := by
  cases normal with
  | zoned address zone => simp [zonedHost]
  | address _ printed => exact ip.ne_nil (by rw [printed]; rfl)
  | name _ nonempty => exact nonempty

theorem NormalHost.trim_eq_self (normal : NormalHost ip.toIpSyntax host) :
    Text.trim host = host := by
  cases normal with
  | zoned _ _ _ _ _ trimmed => exact trimmed
  | address _ printed => exact ip.trim_address (by rw [printed]; rfl)
  | name _ _ trimmed => exact trimmed

/-- A host with a colon is found again by its own text when it is an address. -/
def readsAsHost (ip : IpSyntax) (host : List Char) : Bool :=
  !host.contains ':' || ip.isIpv6 host || isIpv6WithZoneId ip host

theorem readsAsHost_eq_true_iff {ip : IpSyntax} : readsAsHost ip host = true ↔
    ':' ∉ host ∨ ip.isIpv6 host = true ∨ isIpv6WithZoneId ip host = true := by
  simp [readsAsHost, or_assoc]

/-- A zone that is read as one is not empty. -/
theorem isIpv6WithZoneId_eq (ip : IpText) (host : List Char) : isIpv6WithZoneId ip.toIpSyntax host =
    (namesZone ip.toIpSyntax host && (encodeZone host).isSome) := by
  rw [isIpv6WithZoneId, namesZone, encodeZone]
  cases Text.splitOnce '%' host with
  | none => rfl
  | some parts =>
      rcases parts with ⟨address, zone⟩
      have sameColon : (if containsText ['%', '2', '5'] host && ['2', '5'].isPrefixOf zone then
          zone.drop 2 else zone).contains ':' = zone.contains ':' := by
        split
        · rename_i encoded
          rw [Bool.and_eq_true, List.isPrefixOf_iff_prefix] at encoded
          rcases encoded.2 with ⟨rest, rfl⟩
          rfl
        · rfl
      simp only [Option.bind_some, sameColon]
      generalize (if containsText ['%', '2', '5'] host && ['2', '5'].isPrefixOf zone then
        zone.drop 2 else zone) = shortened
      cases shortened <;> simp [Bool.and_comm]

/-- What is stored of a spelled host is found again exactly when the spelled host would be. -/
theorem IpText.readsAsHost_normalizeHost
    (normalizes : normalizeHost ip.toIpSyntax host = some normalized) :
    readsAsHost ip.toIpSyntax normalized = readsAsHost ip.toIpSyntax (Text.trim host) := by
  rw [normalizeHost_eq] at normalizes
  split at normalizes
  · cases normalizes
  · split at normalizes
    · rename_i zoned
      have spelled : readsAsHost ip.toIpSyntax (Text.trim host) = true := by
        rw [readsAsHost_eq_true_iff, isIpv6WithZoneId_eq, zoned, normalizes]
        exact .inr (.inr rfl)
      have stored : isIpv6WithZoneId ip.toIpSyntax normalized = true := by
        rcases ip.of_encodeZone (Fleet.trim_trim host) zoned normalizes with
          ⟨address, zone, rfl, isIpv6, nonempty, noColon, -⟩
        rw [isIpv6WithZoneId_eq, ip.namesZone_zonedHost isIpv6 noColon,
          ip.encodeZone_zonedHost isIpv6 nonempty]
        rfl
      rw [spelled, readsAsHost_eq_true_iff]
      exact .inr (.inr stored)
    · cases normalizes
      cases reprints : ip.reprint (Text.trim host) with
      | none => rfl
      | some printed =>
          have reads : ∀ text, (ip.reprint text).isSome →
              readsAsHost ip.toIpSyntax text = true := by
            intro text isAddress
            rw [readsAsHost_eq_true_iff, ip.isIpv6_iff]
            by_cases colon : ':' ∈ text
            · exact .inr (.inl ⟨isAddress, colon⟩)
            · exact .inl colon
          have isAddress : (ip.reprint (Text.trim host)).isSome := by
            rw [reprints]
            rfl
          have stillAddress : (ip.reprint printed).isSome := by
            rw [ip.reprint_reprint _ _ reprints]
            rfl
          rw [Option.getD_some, reads _ isAddress, reads _ stillAddress]

end Hosts

section Reading

variable {host : List Char}

theorem not_mem_of_usable (symbol : Char) (usable : Fleet.unusableHost host = false)
    (reserved : symbol ∈ ['/', '?', '#', '@', '[', ']']) : symbol ∉ host := by
  simp only [Fleet.unusableHost, Bool.or_eq_false_iff, List.any_eq_false,
    List.contains_iff_mem] at usable
  exact fun member => usable.1.1.2 symbol member reserved

theorem containsText_scheme_eq_false {text : List Char} (noSlash : '/' ∉ text) :
    containsText [':', '/', '/'] text = false := by
  rw [containsText, List.any_eq_false]
  intro tail isTail isPrefix
  have inTail : '/' ∈ tail := (List.isPrefixOf_iff_prefix.mp isPrefix).subset (by simp)
  exact noSlash (((List.mem_tails _ _).mp isTail).subset inTail)

theorem rsplitOnceColon_append (host : List Char) {port : List Char} (noColon : ':' ∉ port) :
    rsplitOnceColon (host ++ ':' :: port) = some (host, port) := by
  have reversed : (host ++ ':' :: port).reverse = port.reverse ++ ':' :: host.reverse := by simp
  rw [rsplitOnceColon, reversed, Text.splitOnce_append (by simpa using noColon), Option.map_some]
  simp

theorem exists_rsplitOnceColon {text : List Char} (colon : ':' ∈ text) :
    ∃ front port, text = front ++ ':' :: port ∧ rsplitOnceColon text = some (front, port) := by
  rcases List.eq_append_cons_of_mem (List.mem_reverse.mpr colon) with
    ⟨port, front, reversed, noColon⟩
  have parts : text = front.reverse ++ ':' :: port.reverse := by
    rw [← List.reverse_reverse text, reversed]
    simp
  refine ⟨front.reverse, port.reverse, parts, ?_⟩
  rw [parts]
  exact rsplitOnceColon_append _ (by simpa using noColon)

variable (ip : IpText)

theorem ofHost_eq (normal : NormalHost ip.toIpSyntax host) :
    EndpointSpec.ofHost ip.toIpSyntax host = .ok ⟨host, DEFAULT_PORT, false⟩ := by
  rw [EndpointSpec.ofHost, normal.normalizeHost_eq_self]

/-- A stored host that reads as one is read as itself. -/
theorem parseHostOnly_host (normal : NormalHost ip.toIpSyntax host)
    (usable : Fleet.unusableHost host = false) (reads : readsAsHost ip.toIpSyntax host = true) :
    EndpointSpec.parseHostOnly ip.toIpSyntax host = .ok ⟨host, DEFAULT_PORT, false⟩ := by
  rw [EndpointSpec.parseHostOnly]
  simp only [normal.trim_eq_self]
  split
  · exact ofHost_eq ip normal
  · rename_i notAddress
    rw [Bool.or_eq_true, not_or] at notAddress
    have noColon : ':' ∉ host := by
      rcases readsAsHost_eq_true_iff.mp reads with noColon | isIpv6 | zoned
      · exact noColon
      · exact absurd ((ip.isIpv6_iff host).mp isIpv6).1 notAddress.1
      · exact absurd zoned notAddress.2
    have noSlash := not_mem_of_usable '/' usable (by simp)
    have noAt := not_mem_of_usable '@' usable (by simp)
    have noBracket : host.head? ≠ some '[' := fun isHead =>
      not_mem_of_usable '[' usable (by simp) (List.mem_of_mem_head? isHead)
    have colons : host.count ':' = 0 := List.count_eq_zero.mpr noColon
    simp only [EndpointSpec.parse, normal.trim_eq_self, List.isEmpty_iff, normal.ne_nil,
      containsText_scheme_eq_false noSlash, noSlash, noAt, noBracket, colons, if_false,
      Bool.false_eq_true, and_false]
    exact ofHost_eq ip normal

theorem trim_append_port {front : List Char} (nonempty : front ≠ [])
    (notSpace : ∀ character ∈ front.head?, Text.isWhitespace character = false) (port : UInt16) :
    Text.trim (front ++ (toString port).toList) = front ++ (toString port).toList := by
  rw [trim_eq_self_iff, List.head?_append_of_ne_nil _ nonempty,
    List.getLast?_append_of_ne_nil _ (port_ne_nil port)]
  refine ⟨notSpace, ?_⟩
  intro character isLast
  exact isWhitespace_of_isDigit (isDigit_of_mem_port (List.mem_of_mem_getLast? isLast))

theorem not_mem_append_port {front : List Char} {symbol : Char} (notMem : symbol ∉ front)
    (notDigit : symbol.isDigit = false) (port : UInt16) :
    symbol ∉ front ++ (toString port).toList := by
  rw [List.mem_append, not_or]
  exact ⟨notMem, not_mem_port symbol notDigit port⟩

theorem IpText.address_of_zoneId {text : List Char}
    (zoned : isIpv6WithZoneId ip.toIpSyntax text = true) :
    ∃ address rest, text = address ++ '%' :: rest ∧ (ip.reprint address).isSome ∧
      ':' ∈ address := by
  rw [isIpv6WithZoneId_eq, Bool.and_eq_true] at zoned
  rcases (namesZone_eq_true_iff ip).mp zoned.1 with ⟨address, zone, rfl, isIpv6, -⟩
  exact ⟨address, zone, rfl, (ip.isIpv6_iff address).mp isIpv6⟩

theorem unbracketedHost_eq_self (usable : Fleet.unusableHost host = false) :
    unbracketedHost host = host := by
  have notPrefix : Search.stripPrefix ['['] host = none := by
    rw [Search.stripPrefix_eq_none_iff]
    intro isPrefix
    exact not_mem_of_usable '[' usable (by simp) (isPrefix.subset (List.mem_singleton_self '['))
  rw [unbracketedHost, notPrefix]
  rfl

/-- A host without a colon and its port are read as themselves. -/
theorem parseHostOnly_unbracketed {port : UInt16} (normal : NormalHost ip.toIpSyntax host)
    (usable : Fleet.unusableHost host = false) (noColon : ':' ∉ host) (positive : port ≠ 0) :
    EndpointSpec.parseHostOnly ip.toIpSyntax (host ++ ':' :: (toString port).toList) =
      .ok ⟨host, port, true⟩ := by
  have colons : (host ++ ':' :: (toString port).toList).count ':' = 1 := by
    rw [List.count_append, List.count_cons_self, List.count_eq_zero.mpr noColon,
      List.count_eq_zero.mpr (not_mem_port ':' rfl port)]
  have split := rsplitOnceColon_append host (not_mem_port ':' rfl port)
  have parts : host ++ ':' :: (toString port).toList =
      (host ++ [':']) ++ (toString port).toList := by simp
  have nonempty : host ++ [':'] ≠ [] := by simp
  have sameHead : (host ++ [':']).head? = host.head? :=
    List.head?_append_of_ne_nil _ (normal.ne_nil ip)
  have notSpace := (trim_eq_self_iff.mp (normal.trim_eq_self ip)).1
  rw [← sameHead] at notSpace
  have trimmed := trim_append_port nonempty notSpace port
  have noSlash : '/' ∉ (host ++ [':']) ++ (toString port).toList :=
    not_mem_append_port (by simp [not_mem_of_usable '/' usable]) rfl port
  have noAt : '@' ∉ (host ++ [':']) ++ (toString port).toList :=
    not_mem_append_port (by simp [not_mem_of_usable '@' usable]) rfl port
  rw [← parts] at trimmed noSlash noAt
  have noBracket : (host ++ ':' :: (toString port).toList).head? ≠ some '[' := by
    rw [List.head?_append_of_ne_nil _ (normal.ne_nil ip)]
    exact fun isHead => not_mem_of_usable '[' usable (by simp) (List.mem_of_mem_head? isHead)
  have notAddress : (ip.reprint (host ++ ':' :: (toString port).toList)).isSome = false := by
    rw [Bool.eq_false_iff]
    intro isAddress
    have two := ip.two_le_count_colon _ isAddress (by simp)
    omega
  have unzoned : isIpv6WithZoneId ip.toIpSyntax (host ++ ':' :: (toString port).toList) =
      false := by
    rw [Bool.eq_false_iff]
    intro zoned
    rcases ip.address_of_zoneId zoned with ⟨address, rest, isText, isAddress, colon⟩
    have two := ip.two_le_count_colon address isAddress colon
    rw [isText, List.count_append] at colons
    omega
  rw [EndpointSpec.parseHostOnly]
  simp only [trimmed, notAddress, unzoned, Bool.or_self, Bool.false_eq_true, if_false,
    EndpointSpec.parse, List.isEmpty_iff, List.append_eq_nil_iff, normal.ne_nil, false_and,
    containsText_scheme_eq_false noSlash, noSlash, noAt, noBracket, colons, and_false, split]
  simp [EndpointSpec.ofParts, parsePort_toString positive, normal.normalizeHost_eq_self, bind,
    Except.bind]

/-- An IPv6 host in brackets and its port are read as themselves. -/
theorem parseHostOnly_bracketed {port : UInt16} (normal : NormalHost ip.toIpSyntax host)
    (usable : Fleet.unusableHost host = false) (reads : readsAsHost ip.toIpSyntax host = true)
    (colon : ':' ∈ host) (positive : port ≠ 0) :
    EndpointSpec.parseHostOnly ip.toIpSyntax
        ('[' :: host ++ ']' :: ':' :: (toString port).toList) = .ok ⟨host, port, true⟩ := by
  have isIpv6 : ip.isIpv6 host = true ∨ isIpv6WithZoneId ip.toIpSyntax host = true := by
    rcases readsAsHost_eq_true_iff.mp reads with noColon | isIpv6
    · exact absurd colon noColon
    · exact isIpv6
  have parts : '[' :: host ++ ']' :: ':' :: (toString port).toList =
      ('[' :: host ++ [']', ':']) ++ (toString port).toList := by simp
  have nonempty : '[' :: host ++ [']', ':'] ≠ [] := by simp
  have notSpace : ∀ character ∈ ('[' :: host ++ [']', ':']).head?,
      Text.isWhitespace character = false := by
    rintro _ ⟨⟩
    decide
  have trimmed := trim_append_port nonempty notSpace port
  have noSlash : '/' ∉ ('[' :: host ++ [']', ':']) ++ (toString port).toList :=
    not_mem_append_port (by simp [not_mem_of_usable '/' usable]) rfl port
  have noAt : '@' ∉ ('[' :: host ++ [']', ':']) ++ (toString port).toList :=
    not_mem_append_port (by simp [not_mem_of_usable '@' usable]) rfl port
  rw [← parts] at trimmed noSlash noAt
  have split : Text.splitOnce ']' ('[' :: host ++ ']' :: ':' :: (toString port).toList) =
      some ('[' :: host, ':' :: (toString port).toList) := by
    apply Text.splitOnce_append
    simp [not_mem_of_usable ']' usable]
  have notAlphabet : ∀ text, (ip.reprint text).isSome → '[' ∉ text := by
    intro text isAddress member
    rcases ip.alphabet text isAddress '[' member with isHex | isColon | isDot
    · exact absurd isHex (by decide)
    · cases isColon
    · cases isDot
  have notAddress : (ip.reprint ('[' :: host ++ ']' :: ':' :: (toString port).toList)).isSome =
      false := by
    rw [Bool.eq_false_iff]
    exact fun isAddress => notAlphabet _ isAddress (by simp)
  have unzoned : isIpv6WithZoneId ip.toIpSyntax
      ('[' :: host ++ ']' :: ':' :: (toString port).toList) = false := by
    rw [Bool.eq_false_iff]
    intro zoned
    rcases ip.address_of_zoneId zoned with ⟨address, rest, isText, isAddress, -⟩
    have sameHead := congrArg List.head? isText
    rw [List.head?_append_of_ne_nil _ (ip.ne_nil isAddress)] at sameHead
    exact notAlphabet address isAddress (List.mem_of_mem_head? sameHead.symm)
  have portText : (toString port).toList.any (['/', '?', '#'].contains ·) = false := by
    rw [List.any_eq_false]
    intro character member isReserved
    have isDigit := isDigit_of_mem_port member
    simp only [List.contains_iff_mem, List.mem_cons, List.not_mem_nil, or_false] at isReserved
    rcases isReserved with rfl | rfl | rfl <;> cases isDigit
  have bracketed : EndpointSpec.parseBracketedIpv6 ip.toIpSyntax
      ('[' :: host ++ ']' :: ':' :: (toString port).toList) = .ok ⟨host, port, true⟩ := by
    have isEmpty : host.isEmpty = false := List.isEmpty_eq_false_iff.mpr (normal.ne_nil ip)
    have accepted : (!ip.isIpv6 host && !isIpv6WithZoneId ip.toIpSyntax host) = false := by
      rcases isIpv6 with isIpv6 | isIpv6 <;> simp [isIpv6]
    simp only [EndpointSpec.parseBracketedIpv6, split, List.drop_one, List.tail_cons, isEmpty,
      portText, parsePort_toString positive, bind, Except.bind, accepted,
      normal.normalizeHost_eq_self, Bool.false_eq_true, if_false]
  have isBracket : ('[' :: host ++ ']' :: ':' :: (toString port).toList).head? = some '[' := rfl
  rw [EndpointSpec.parseHostOnly]
  simp only [trimmed, notAddress, unzoned, Bool.or_self, Bool.false_eq_true, if_false,
    EndpointSpec.parse, containsText_scheme_eq_false noSlash, noAt, isBracket, bracketed,
    ne_eq, not_true_eq_false, false_and, if_true]
  rfl

/-- The displayed address of a stored host that reads as one is read as the host and the port. -/
theorem parseHostOnly_displayAddress {port : UInt16} (normal : NormalHost ip.toIpSyntax host)
    (usable : Fleet.unusableHost host = false) (reads : readsAsHost ip.toIpSyntax host = true)
    (positive : port ≠ 0) :
    EndpointSpec.parseHostOnly ip.toIpSyntax (displayAddress ip.toIpSyntax host port) =
      .ok ⟨host, port, true⟩ := by
  rw [displayAddress, unbracketedHost_eq_self usable, normal.normalizeHost_eq_self]
  by_cases colon : ':' ∈ host
  · simp only [if_pos colon]
    exact parseHostOnly_bracketed ip normal usable reads colon positive
  · simp only [if_neg colon]
    exact parseHostOnly_unbracketed ip normal usable colon positive

end Reading

section Misreading

variable (ip : IpText) {host : List Char} {spec : EndpointSpec}

theorem length_toAsciiLowercase (text : List Char) : (toAsciiLowercase text).length = text.length :=
  List.length_map _

/-- A host that does not read as one is read as something else, if it is read at all. -/
theorem parseHostOnly_misread (normal : NormalHost ip.toIpSyntax host)
    (usable : Fleet.unusableHost host = false) (misread : readsAsHost ip.toIpSyntax host = false)
    (parsed : EndpointSpec.parseHostOnly ip.toIpSyntax host = .ok spec) :
    toAsciiLowercase host ≠ toAsciiLowercase spec.host := by
  intro same
  rw [← Bool.not_eq_true, readsAsHost_eq_true_iff, not_or, not_or, not_not] at misread
  rcases misread with ⟨colon, notIpv6, unzoned⟩
  have notAddress : ip.reprint host = none := by
    rw [ip.isIpv6_iff, not_and'] at notIpv6
    simpa using notIpv6 colon
  have notZone : namesZone ip.toIpSyntax host = false := by
    cases normal with
    | zoned address zone isIpv6 nonempty noColon _ =>
        rw [isIpv6WithZoneId_eq, ip.namesZone_zonedHost isIpv6 noColon,
          ip.encodeZone_zonedHost isIpv6 nonempty] at unzoned
        exact absurd rfl unzoned
    | address _ printed =>
        rw [notAddress] at printed
        cases printed
    | name _ _ _ _ notZone => exact notZone
  rw [EndpointSpec.parseHostOnly] at parsed
  simp only [normal.trim_eq_self, notAddress, Option.isSome_none, Bool.false_or, unzoned] at parsed
  rcases EndpointSpec.of_parse parsed with ⟨-, normalizes⟩ | ⟨-, -, readable⟩
  · rw [normal.trim_eq_self] at normalizes
    rcases exists_rsplitOnceColon colon with ⟨front, port, isHost, split⟩
    have noBracket : host.head? ≠ some '[' := fun isHead =>
      not_mem_of_usable '[' usable (by simp) (List.mem_of_mem_head? isHead)
    have isFront : spelledHost host = front := by
      rw [spelledHost, if_neg noBracket, split]
      rfl
    rw [isFront, normalizeHost_eq] at normalizes
    split at normalizes
    · cases normalizes
    · split at normalizes
      · rename_i zoned
        rcases ip.of_encodeZone (Fleet.trim_trim front) zoned normalizes with
          ⟨address, zone, isZoned, isIpv6, -, noColon, -⟩
        have lowered := congrArg (namesZone ip.toIpSyntax) same
        rw [ip.namesZone_lowercase, ip.namesZone_lowercase, notZone, isZoned,
          ip.namesZone_zonedHost isIpv6 noColon] at lowered
        cases lowered
      · rename_i notZoned
        cases reprints : ip.reprint (Text.trim front) with
        | some printed =>
            rw [reprints, Option.getD_some] at normalizes
            cases normalizes
            have lowered := congrArg ip.reprint same
            rw [ip.reprint_lowercase, ip.reprint_lowercase, notAddress,
              ip.reprint_reprint _ _ reprints] at lowered
            cases lowered
        | none =>
            rw [reprints, Option.getD_none, Option.some_inj] at normalizes
            have lengths := congrArg List.length same
            rw [length_toAsciiLowercase, length_toAsciiLowercase, ← normalizes] at lengths
            have shorter : (Text.trim front).length ≤ front.length :=
              (Search.isInfix_trimMatches Text.isWhitespace front).length_le
            have longer := congrArg List.length isHost
            rw [List.length_append, List.length_cons] at longer
            omega
  · rw [normal.trim_eq_self, notAddress] at readable
    rcases readable with noColon | isAddress | zoned
    · exact noColon colon
    · cases isAddress
    · exact unzoned zoned

end Misreading

section Systems

variable {ip : IpSyntax} {seenIds : List String} {seenAddresses : List (List Char)}
  {systems fewer : List SystemEntry}

theorem system_of_validateSystemsFrom
    (valid : Fleet.validateSystemsFrom ip seenIds seenAddresses systems = [])
    {system : SystemEntry} (member : system ∈ systems) :
    (∃ normalized, Fleet.validateSystemHost ip system = .ok normalized) ∧ system.port ≠ 0 := by
  induction systems generalizing seenIds seenAddresses with
  | nil => cases member
  | cons first rest ih =>
      simp only [Fleet.validateSystemsFrom, List.append_eq_nil_iff] at valid
      rcases valid with ⟨⟨⟨⟨-, host⟩, port⟩, -⟩, restValid⟩
      rcases List.mem_cons.mp member with rfl | later
      · refine ⟨?_, ?_⟩
        · cases checked : Fleet.validateSystemHost ip system with
          | error violation => simp [checked] at host
          | ok normalized => exact ⟨normalized, rfl⟩
        · simpa using port
      · exact ih restValid later

/-- Fewer systems are valid when more are. -/
theorem validateSystemsFrom_sublist (sublist : fewer.Sublist systems) {lessIds : List String}
    {lessAddresses : List (List Char)} (ids : lessIds ⊆ seenIds)
    (addresses : lessAddresses ⊆ seenAddresses)
    (valid : Fleet.validateSystemsFrom ip seenIds seenAddresses systems = []) :
    Fleet.validateSystemsFrom ip lessIds lessAddresses fewer = [] := by
  induction sublist generalizing seenIds seenAddresses lessIds lessAddresses with
  | slnil => rfl
  | cons system _ ih =>
      simp only [Fleet.validateSystemsFrom, List.append_eq_nil_iff] at valid
      refine ih ?_ ?_ valid.2
      · exact fun id member => List.mem_append_left _ (ids member)
      · intro address member
        split
        · exact addresses member
        · exact List.mem_append_left _ (addresses member)
  | cons_cons system _ ih =>
      simp only [Fleet.validateSystemsFrom, List.append_eq_nil_iff] at valid ⊢
      rcases valid with ⟨⟨⟨⟨id, host⟩, port⟩, name⟩, rest⟩
      refine ⟨⟨⟨⟨?_, ?_⟩, port⟩, name⟩, ?_⟩
      · simp only [ite_eq_right_iff, List.cons_ne_nil, imp_false, List.contains_iff_mem] at id ⊢
        exact fun seen => id (ids seen)
      · cases checked : Fleet.validateSystemHost ip system with
        | error violation => simp [checked] at host
        | ok normalized =>
            simp only [checked, ite_eq_right_iff, List.cons_ne_nil, imp_false,
              List.contains_iff_mem] at host ⊢
            exact fun seen => host (addresses seen)
      · refine ih ?_ ?_ rest
        · exact List.append_subset.mpr
            ⟨fun id member => List.mem_append_left _ (ids member), List.subset_append_right _ _⟩
        · cases Fleet.validateSystemHost ip system with
          | error violation => exact addresses
          | ok normalized =>
              exact List.append_subset.mpr
                ⟨fun _ member => List.mem_append_left _ (addresses member),
                  List.subset_append_right _ _⟩

end Systems

/-- Whether a system is at the host of an entry, and at its port where one is given. -/
def atEndpoint (entry : SystemEntry) (portGiven : Bool) (system : SystemEntry) : Bool :=
  eqIgnoreAsciiCase system.host.toList entry.host.toList &&
    (!portGiven || system.port == entry.port)

/-- `gregg remove` removes every system at the endpoint of an entry and no other. -/
def RemovedBy (ip : IpSyntax) (config : Config) (entry : SystemEntry) (portGiven : Bool)
    (input : List Char) : Prop :=
  ∃ after, cmdRemove ip input config = .ok after ∧ after.validate ip = [] ∧
    after = { config with systems := config.systems.filter (!atEndpoint entry portGiven ·) }

/-- An entry is removed by its stored host and by its displayed address. -/
structure Removable (ip : IpSyntax) (config : Config) (entry : SystemEntry) : Prop where
  byHost : RemovedBy ip config entry false entry.host.toList
  byAddress : RemovedBy ip config entry true (displayAddress ip entry.host.toList entry.port)

/-- The entry that a text given to `gregg add` stands for. -/
structure AddedEntry (ip : IpSyntax) (urls : UrlSyntax) (input : List Char) (config : Config)
    (entry : SystemEntry) : Prop where
  member : entry ∈ config.systems
  parsed : ∃ target, parseAddTarget ip urls input = .ok target ∧
    entry.host = String.ofList target.endpoint.host ∧ entry.port = target.endpoint.port

/-- Whether the host that a text given to `gregg add` spells is found again by its own text. -/
def spellsReadableHost (ip : IpSyntax) (urls : UrlSyntax) (input : List Char) : Bool :=
  (endpointText urls input).any fun text =>
    readsAsHost ip (Text.trim (spelledHost (Text.trim text)))

section Removing

variable (ip : IpText) {urls : UrlSyntax} {input : List Char} {config after : Config}
  {entry : SystemEntry}

theorem validate_filter {keeps : SystemEntry → Bool} (valid : config.validate ip.toIpSyntax = []) :
    { config with systems := config.systems.filter keeps }.validate ip.toIpSyntax = [] := by
  simp only [Config.validate, List.append_eq_nil_iff, List.map_eq_nil_iff] at valid ⊢
  rcases valid with ⟨⟨⟨settings, systems⟩, eggpool⟩, cron⟩
  exact ⟨⟨⟨settings, validateSystemsFrom_sublist List.filter_sublist (fun _ seen => seen)
    (fun _ seen => seen) systems⟩, eggpool⟩, cron⟩

theorem usable_of_validate (valid : config.validate ip.toIpSyntax = [])
    (member : entry ∈ config.systems)
    (trimmed : Text.trim entry.host.toList = entry.host.toList) :
    Fleet.unusableHost entry.host.toList = false ∧ entry.port ≠ 0 := by
  simp only [Config.validate, List.append_eq_nil_iff, List.map_eq_nil_iff] at valid
  rcases system_of_validateSystemsFrom valid.1.1.2 member with ⟨⟨normalized, host⟩, port⟩
  refine ⟨?_, port⟩
  simp only [Fleet.validateSystemHost, trimmed] at host
  split at host
  · cases host
  · split at host
    · cases host
    · rename_i usable
      exact Bool.eq_false_iff.mpr usable

theorem removedBy_of_parse {portGiven : Bool} {text : List Char}
    (valid : config.validate ip.toIpSyntax = []) {port : UInt16}
    (parsed : EndpointSpec.parseHostOnly ip.toIpSyntax text =
      .ok ⟨entry.host.toList, port, portGiven⟩) (samePort : portGiven = true → port = entry.port) :
    RemovedBy ip.toIpSyntax config entry portGiven text := by
  have same : removes ⟨entry.host.toList, port, portGiven⟩ = atEndpoint entry portGiven := by
    funext system
    cases portGiven with
    | false => rfl
    | true => rw [removes, atEndpoint, samePort rfl]
  refine ⟨_, ?_, validate_filter ip valid, rfl⟩
  rw [cmdRemove, parsed, ← same]
  rfl

/-- What was added can be removed exactly when the host it spells is found again by its own
text. -/
theorem added_removable_iff {name : Option (List Char)} {replace : Bool} {newId : String}
    (added : cmdAdd ip.toIpSyntax urls input name replace newId config = .ok after)
    (valid : after.validate ip.toIpSyntax = []) :
    (∃ entry, AddedEntry ip.toIpSyntax urls input after entry) ∧
      ∀ entry, AddedEntry ip.toIpSyntax urls input after entry →
        (Removable ip.toIpSyntax after entry ↔
          spellsReadableHost ip.toIpSyntax urls input = true) := by
  rcases of_cmdAdd added with ⟨target, finalName, parsed, explicit, stored⟩
  rcases of_parseAddTarget parsed with ⟨text, isText, parsedText⟩
  rcases mem_of_addSystem stored with ⟨-, ⟨entry, member, host, port⟩, -⟩
  refine ⟨⟨entry, member, target, parsed, host, port⟩, ?_⟩
  rintro entry ⟨member, other, parsedOther, host, port⟩
  rw [parsed] at parsedOther
  cases parsedOther
  have isHost : entry.host.toList = target.endpoint.host := by rw [host, String.toList_ofList]
  have normal : NormalHost ip.toIpSyntax entry.host.toList := by
    rw [isHost]
    exact ip.normalHost_of_parse parsedText
  rcases usable_of_validate ip valid member (normal.trim_eq_self ip) with ⟨usable, positive⟩
  have spelled : spellsReadableHost ip.toIpSyntax urls input =
      readsAsHost ip.toIpSyntax entry.host.toList := by
    rcases EndpointSpec.of_parse parsedText with ⟨-, normalizes⟩ | ⟨implicit, -⟩
    · rw [spellsReadableHost, isText, Option.any_some, isHost,
        ip.readsAsHost_normalizeHost normalizes]
    · rw [explicit] at implicit
      cases implicit
  rw [spelled]
  constructor
  · intro removable
    by_contra misread
    rw [Bool.not_eq_true] at misread
    rcases removable.byHost with ⟨left, removed, -, isLeft⟩
    rcases exists_of_bind_eq_ok removed with ⟨spec, parsedHost, filtered⟩
    cases filtered
    have systems := congrArg Config.systems isLeft
    simp only at systems
    have gone : entry ∉ after.systems.filter (!atEndpoint entry false ·) := by
      simp [atEndpoint, eqIgnoreAsciiCase]
    rw [← systems, List.mem_filter, not_and] at gone
    have isRemoved := gone member
    simp only [removes, eqIgnoreAsciiCase, Bool.not_eq_true', Bool.not_eq_false,
      Bool.and_eq_true, beq_iff_eq] at isRemoved
    exact parseHostOnly_misread ip normal usable misread (eq_ok_of_mapError parsedHost)
      isRemoved.1
  · intro reads
    exact ⟨removedBy_of_parse ip valid (parseHostOnly_host ip normal usable reads) nofun,
      removedBy_of_parse ip valid
        (parseHostOnly_displayAddress ip normal usable reads positive) (fun _ => rfl)⟩

end Removing

section Samples

/-- The default configuration with one system. -/
def oneSystem (host : String) (port : UInt16) : Config :=
  { Config.default with systems := [⟨"1", host, port, none⟩] }

theorem loopback_added_is_removable :
    Removable IpText.loopback.toIpSyntax (oneSystem "::1" 80) ⟨"1", "::1", 80, none⟩ := by
  have added : cmdAdd IpText.loopback.toIpSyntax (fun _ => none) "[::1]:80".toList none false "1"
      Config.default = .ok (oneSystem "::1" 80) := rfl
  have isAdded : AddedEntry IpText.loopback.toIpSyntax (fun _ => none) "[::1]:80".toList
      (oneSystem "::1" 80) ⟨"1", "::1", 80, none⟩ :=
    ⟨List.mem_singleton_self _, ⟨none, ⟨[':', ':', '1'], 80, true⟩⟩, rfl, rfl, rfl⟩
  exact ((added_removable_iff IpText.loopback added (by decide +kernel)).2 _ isAdded).mpr
    (by decide +kernel)

/-- `a:b:80` is taken for the port 80 of a host `a:b`, which `gregg remove a:b` takes for the port
`b` of a host `a`. -/
theorem hostWithColon_stays :
    cmdAdd IpText.loopback.toIpSyntax (fun _ => none) "a:b:80".toList none false "1"
        Config.default = .ok (oneSystem "a:b" 80) ∧
      (oneSystem "a:b" 80).validate IpText.loopback.toIpSyntax = [] ∧
      AddedEntry IpText.loopback.toIpSyntax (fun _ => none) "a:b:80".toList (oneSystem "a:b" 80)
        ⟨"1", "a:b", 80, none⟩ ∧
      cmdRemove IpText.loopback.toIpSyntax "a:b".toList (oneSystem "a:b" 80) =
        .error (.endpoint (.portNotANumber "a:b".toList)) ∧
      cmdRemove IpText.loopback.toIpSyntax
          (displayAddress IpText.loopback.toIpSyntax "a:b".toList 80) (oneSystem "a:b" 80) =
        .error (.endpoint (.malformedBrackets "[a:b]:80".toList)) ∧
      ¬Removable IpText.loopback.toIpSyntax (oneSystem "a:b" 80) ⟨"1", "a:b", 80, none⟩ := by
  refine ⟨rfl, by decide +kernel, ?_, rfl, rfl, ?_⟩
  · exact ⟨List.mem_singleton_self _, ⟨none, ⟨['a', ':', 'b'], 80, true⟩⟩, rfl, rfl, rfl⟩
  · rintro ⟨⟨after, removed, -⟩, -⟩
    cases removed

end Samples

end Gregg.ConfigFile
