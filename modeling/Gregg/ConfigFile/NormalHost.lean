import Mathlib.Data.Bool.AllAny
import Mathlib.Data.List.Infix
import Gregg.ConfigFile.Store

/-!
# Normal hosts

What reading a host leaves: an address as the standard library prints it, an IPv6 address with an
encoded zone, or a name. Reading any of them again changes nothing, also after the case of a name
was lowered.
-/

namespace Gregg.ConfigFile

open Fleet (IpSyntax normalizeHost containsText toAsciiLowercase)

/-- The IP addresses of the standard library, as far as the readers of hosts rely on them. -/
structure IpText extends IpSyntax where
  reprint_nil : reprint [] = none
  reprint_reprint : ∀ text printed, reprint text = some printed → reprint printed = some printed
  alphabet : ∀ text, (reprint text).isSome → ∀ character ∈ text,
    (Text.hexValue character).isSome ∨ character = ':' ∨ character = '.'
  two_le_count_colon : ∀ text, (reprint text).isSome → ':' ∈ text → 2 ≤ text.count ':'
  isIpv6_iff : ∀ text, isIpv6 text = true ↔ (reprint text).isSome ∧ ':' ∈ text
  reprint_lowercase : ∀ text, reprint (toAsciiLowercase text) = reprint text

section Texts

variable {text : List Char}

/-- A text is trimmed when neither of its ends is a space. -/
theorem trim_eq_self_iff : Text.trim text = text ↔
    (∀ character ∈ text.head?, Text.isWhitespace character = false) ∧
      ∀ character ∈ text.getLast?, Text.isWhitespace character = false :=
  Search.trimMatches_eq_self_iff

theorem containsText_append (front needle rest : List Char) :
    containsText needle (front ++ needle ++ rest) = true := by
  rw [containsText, List.any_eq_true]
  refine ⟨needle ++ rest, ?_, List.isPrefixOf_iff_prefix.mpr (List.prefix_append _ _)⟩
  rw [List.append_assoc]
  exact (List.mem_tails _ _).mpr (List.suffix_append _ _)

end Texts

/-- Whether a host is an IPv6 address with a zone, also an empty one. -/
def namesZone (ip : IpSyntax) (host : List Char) : Bool :=
  match Text.splitOnce '%' host with
  | some (before, zone) => ip.isIpv6 before && !zone.contains ':'
  | none => false

/-- An IPv6 address with its zone, whose separator is encoded. -/
def zonedHost (address zone : List Char) : List Char :=
  address ++ ['%', '2', '5'] ++ zone

/-- A host as it is stored. -/
inductive NormalHost (ip : IpSyntax) : List Char → Prop where
  | zoned (address zone : List Char) (isIpv6 : ip.isIpv6 address = true) (nonempty : zone ≠ [])
      (noColon : ':' ∉ zone)
      (trimmed : Text.trim (zonedHost address zone) = zonedHost address zone) :
      NormalHost ip (zonedHost address zone)
  | address (host : List Char) (printed : ip.reprint host = some host) : NormalHost ip host
  | name (host : List Char) (nonempty : host ≠ []) (trimmed : Text.trim host = host)
      (notAddress : ip.reprint host = none) (unzoned : namesZone ip host = false) :
      NormalHost ip host

/-- The stored form of an IPv6 address with a zone, `none` for an empty zone. -/
def encodeZone (host : List Char) : Option (List Char) :=
  (Text.splitOnce '%' host).bind fun (before, zone) =>
    let zone :=
      if containsText ['%', '2', '5'] host && ['2', '5'].isPrefixOf zone then zone.drop 2 else zone
    if zone.isEmpty then none else some (zonedHost before zone)

theorem normalizeHost_eq (ip : IpSyntax) (host : List Char) : normalizeHost ip host =
    if (Text.trim host).isEmpty then none
    else if namesZone ip (Text.trim host) then encodeZone (Text.trim host)
    else some ((ip.reprint (Text.trim host)).getD (Text.trim host)) := by
  cases split : Text.splitOnce '%' (Text.trim host) with
  | none =>
      simp only [normalizeHost, namesZone, encodeZone, split]
      cases ip.reprint (Text.trim host) <;> rfl
  | some parts =>
      rcases parts with ⟨before, zone⟩
      simp only [normalizeHost, namesZone, encodeZone, split, Option.bind_some, zonedHost]
      cases ip.reprint (Text.trim host) <;> rfl

/-- Both readers of hosts agree but for the case of names. -/
theorem eggpoolNormalizeHost_eq (ip : IpSyntax) (host : List Char) :
    (eggpoolNormalizeHost ip host).toOption =
    if (Text.trim host).isEmpty then none
    else if namesZone ip (Text.trim host) then encodeZone (Text.trim host)
    else some ((ip.reprint (Text.trim host)).getD (toAsciiLowercase (Text.trim host))) := by
  cases split : Text.splitOnce '%' (Text.trim host) with
  | none =>
      simp only [eggpoolNormalizeHost, namesZone, split]
      split <;> rfl
  | some parts =>
      rcases parts with ⟨before, zone⟩
      simp only [eggpoolNormalizeHost, namesZone, encodeZone, split, Option.bind_some, zonedHost]
      split
      · rfl
      · split
        · generalize (if (containsText ['%', '2', '5'] (Text.trim host) &&
            ['2', '5'].isPrefixOf zone) = true then zone.drop 2 else zone) = shortened
          cases shortened <;> rfl
        · rfl

section Addresses

variable (ip : IpText) {address zone host normalized : List Char}

theorem isWhitespace_of_alphabet {character : Char}
    (allowed : (Text.hexValue character).isSome ∨ character = ':' ∨ character = '.') :
    Text.isWhitespace character = false := by
  rcases allowed with isHex | rfl | rfl
  · have range : 0x30 ≤ character.toNat ∧ character.toNat ≤ 0x66 := by
      simp only [Text.hexValue] at isHex
      split at isHex
      · rename_i digit
        have low : 0x30 ≤ character.toNat := digit.1
        have high : character.toNat ≤ 0x39 := digit.2
        omega
      · split at isHex
        · rename_i lower
          have low : 0x61 ≤ character.toNat := lower.1
          have high : character.toNat ≤ 0x66 := lower.2
          omega
        · split at isHex
          · rename_i upper
            have low : 0x41 ≤ character.toNat := upper.1
            have high : character.toNat ≤ 0x46 := upper.2
            omega
          · cases isHex
    simp only [Text.isWhitespace, Bool.or_eq_false_iff, Bool.and_eq_false_imp, decide_eq_true_eq,
      decide_eq_false_iff_not, beq_eq_false_iff_ne]
    omega
  · decide
  · decide

theorem IpText.ne_nil (isAddress : (ip.reprint host).isSome) : host ≠ [] := by
  rintro rfl
  rw [ip.reprint_nil] at isAddress
  cases isAddress

theorem IpText.trim_address (isAddress : (ip.reprint host).isSome) : Text.trim host = host := by
  rw [trim_eq_self_iff]
  constructor
  · intro character isHead
    exact isWhitespace_of_alphabet
      (ip.alphabet host isAddress character (List.mem_of_mem_head? isHead))
  · intro character isLast
    exact isWhitespace_of_alphabet
      (ip.alphabet host isAddress character (List.mem_of_mem_getLast? isLast))

theorem IpText.percent_not_mem (isAddress : (ip.reprint host).isSome) : '%' ∉ host := by
  intro member
  rcases ip.alphabet host isAddress '%' member with isHex | isColon | isDot
  · exact absurd isHex (by decide)
  · cases isColon
  · cases isDot

theorem IpText.splitOnce_zonedHost (isIpv6 : ip.isIpv6 address = true) :
    Text.splitOnce '%' (zonedHost address zone) = some (address, '2' :: '5' :: zone) := by
  have parts : zonedHost address zone = address ++ '%' :: '2' :: '5' :: zone := by
    simp [zonedHost]
  rw [parts]
  exact Text.splitOnce_append (ip.percent_not_mem ((ip.isIpv6_iff address).mp isIpv6).1)

theorem IpText.namesZone_zonedHost (isIpv6 : ip.isIpv6 address = true) (noColon : ':' ∉ zone) :
    namesZone ip.toIpSyntax (zonedHost address zone) = true := by
  simp [namesZone, ip.splitOnce_zonedHost isIpv6, isIpv6, noColon]

theorem containsText_zonedHost (address zone : List Char) :
    containsText ['%', '2', '5'] (zonedHost address zone) = true :=
  containsText_append address ['%', '2', '5'] zone

theorem IpText.encodeZone_zonedHost (isIpv6 : ip.isIpv6 address = true) (nonempty : zone ≠ []) :
    encodeZone (zonedHost address zone) = some (zonedHost address zone) := by
  simp [encodeZone, ip.splitOnce_zonedHost isIpv6, containsText_zonedHost, nonempty]

/-- Reading a stored host again changes nothing. -/
theorem NormalHost.normalizeHost_eq_self (normal : NormalHost ip.toIpSyntax host) :
    normalizeHost ip.toIpSyntax host = some host := by
  rw [normalizeHost_eq]
  cases normal with
  | zoned address zone isIpv6 nonempty noColon trimmed =>
      rw [trimmed, ip.namesZone_zonedHost isIpv6 noColon, ip.encodeZone_zonedHost isIpv6 nonempty]
      simp [zonedHost]
  | address _ printed =>
      have isAddress : (ip.reprint host).isSome := by rw [printed]; rfl
      have unzoned : namesZone ip.toIpSyntax host = false := by
        rw [namesZone, Text.splitOnce_eq_none (ip.percent_not_mem isAddress)]
      simp [ip.trim_address isAddress, unzoned, printed, ip.ne_nil isAddress]
  | name _ nonempty trimmed notAddress unzoned =>
      simp [trimmed, nonempty, notAddress, unzoned]

theorem namesZone_eq_true_iff : namesZone ip.toIpSyntax host = true ↔
    ∃ address zone, host = address ++ '%' :: zone ∧ ip.isIpv6 address = true ∧ ':' ∉ zone := by
  constructor
  · intro zoned
    rw [namesZone] at zoned
    split at zoned
    · rename_i address zone split
      simp only [Bool.and_eq_true, Bool.not_eq_true', List.contains_eq_mem,
        decide_eq_false_iff_not] at zoned
      exact ⟨address, zone, Fleet.eq_of_splitOnce split, zoned⟩
    · cases zoned
  · rintro ⟨address, zone, rfl, isIpv6, noColon⟩
    have noPercent := ip.percent_not_mem ((ip.isIpv6_iff address).mp isIpv6).1
    simp [namesZone, Text.splitOnce_append noPercent, isIpv6, noColon]

/-- Encoding the separator keeps the ends of a host. -/
theorem trim_zonedHost {longer : List Char} (isAddress : address ≠ []) (nonempty : zone ≠ [])
    (ending : zone <:+ longer)
    (trimmed : Text.trim (address ++ '%' :: longer) = address ++ '%' :: longer) :
    Text.trim (zonedHost address zone) = zonedHost address zone := by
  rw [trim_eq_self_iff] at trimmed ⊢
  rcases ending with ⟨front, rfl⟩
  have sameHead : (zonedHost address zone).head? = address.head? := by
    rw [zonedHost, List.append_assoc, List.head?_append_of_ne_nil _ isAddress]
  have sameLast : (zonedHost address zone).getLast? = zone.getLast? := by
    rw [zonedHost, List.getLast?_append_of_ne_nil _ nonempty]
  have longerLast : (address ++ '%' :: (front ++ zone)).getLast? = zone.getLast? := by
    have parts : address ++ '%' :: (front ++ zone) = (address ++ '%' :: front) ++ zone := by simp
    rw [parts, List.getLast?_append_of_ne_nil _ nonempty]
  rw [List.head?_append_of_ne_nil _ isAddress, longerLast] at trimmed
  rw [sameHead, sameLast]
  exact trimmed

theorem IpText.of_encodeZone (trimmed : Text.trim host = host)
    (zoned : namesZone ip.toIpSyntax host = true) (encodes : encodeZone host = some normalized) :
    ∃ address zone, normalized = zonedHost address zone ∧ ip.isIpv6 address = true ∧
      zone ≠ [] ∧ ':' ∉ zone ∧ Text.trim normalized = normalized := by
  rcases (namesZone_eq_true_iff ip).mp zoned with ⟨address, zone, rfl, isIpv6, noColon⟩
  have isAddress := ((ip.isIpv6_iff address).mp isIpv6).1
  rw [encodeZone, Text.splitOnce_append (ip.percent_not_mem isAddress), Option.bind_some] at encodes
  have ending : (if (containsText ['%', '2', '5'] (address ++ '%' :: zone) &&
      ['2', '5'].isPrefixOf zone) = true then zone.drop 2 else zone) <:+ zone := by
    split
    · exact List.drop_suffix 2 zone
    · exact List.suffix_rfl
  simp only at encodes
  generalize (if (containsText ['%', '2', '5'] (address ++ '%' :: zone) &&
    ['2', '5'].isPrefixOf zone) = true then zone.drop 2 else zone) = shortened at encodes ending
  split at encodes
  · cases encodes
  · rename_i nonempty
    cases encodes
    have shortenedNonempty : shortened ≠ [] := by
      rintro rfl
      exact nonempty rfl
    exact ⟨address, shortened, rfl, isIpv6, shortenedNonempty,
      fun member => noColon (ending.subset member),
      trim_zonedHost (ip.ne_nil isAddress) shortenedNonempty ending trimmed⟩

theorem IpText.normalHost_of_encodeZone (trimmed : Text.trim host = host)
    (zoned : namesZone ip.toIpSyntax host = true) (encodes : encodeZone host = some normalized) :
    NormalHost ip.toIpSyntax normalized := by
  rcases ip.of_encodeZone trimmed zoned encodes with
    ⟨address, zone, rfl, isIpv6, nonempty, noColon, stillTrimmed⟩
  exact .zoned address zone isIpv6 nonempty noColon stillTrimmed

/-- What reading a host leaves is normal. -/
theorem IpText.normalHost_of_normalizeHost
    (normalizes : normalizeHost ip.toIpSyntax host = some normalized) :
    NormalHost ip.toIpSyntax normalized := by
  rw [normalizeHost_eq] at normalizes
  split at normalizes
  · cases normalizes
  · rename_i nonempty
    split at normalizes
    · rename_i zoned
      exact ip.normalHost_of_encodeZone (Fleet.trim_trim host) zoned normalizes
    · rename_i unzoned
      cases normalizes
      cases reprints : ip.reprint (Text.trim host) with
      | some printed => exact .address printed (ip.reprint_reprint _ _ reprints)
      | none =>
          exact .name _ (by simpa using nonempty) (Fleet.trim_trim host) reprints
            (Bool.eq_false_iff.mpr unzoned)

theorem normalizeHost_idempotent (normalizes : normalizeHost ip.toIpSyntax host = some normalized) :
    normalizeHost ip.toIpSyntax normalized = some normalized :=
  (ip.normalHost_of_normalizeHost normalizes).normalizeHost_eq_self

end Addresses

section LowerCase

variable {symbol character : Char} {text : List Char}

theorem toNat_toLower (character : Char) : character.toLower.toNat =
    if 65 ≤ character.toNat ∧ character.toNat ≤ 90 then character.toNat + 32
    else character.toNat := by
  delta Char.toLower
  split
  · rename_i upper
    have low : 65 ≤ character.toNat := upper.1
    have high : character.toNat ≤ 90 := upper.2
    rw [if_pos ⟨low, high⟩]
    change (character.val + ('a'.val - 'A'.val)).toNat = _
    rw [UInt32.toNat_add]
    have : ('a'.val - 'A'.val).toNat = 32 := by decide
    rw [this]
    change (character.toNat + 32) % 2 ^ 32 = _
    omega
  · rename_i notUpper
    rw [if_neg]
    exact notUpper

theorem toLower_eq_iff {symbol character : Char} (notLetter : symbol.isAlpha = false) :
    character.toLower = symbol ↔ character = symbol := by
  have range : ¬(65 ≤ symbol.toNat ∧ symbol.toNat ≤ 90) ∧
      ¬(97 ≤ symbol.toNat ∧ symbol.toNat ≤ 122) := by
    have neither : (symbol.isUpper || symbol.isLower) = false := notLetter
    rw [Bool.or_eq_false_iff] at neither
    constructor
    · rintro ⟨low, high⟩
      have upper : symbol.isUpper = true := decide_eq_true ⟨low, high⟩
      rw [upper] at neither
      cases neither.1
    · rintro ⟨low, high⟩
      have lower : symbol.isLower = true :=
        (Bool.and_eq_true _ _).mpr ⟨decide_eq_true low, decide_eq_true high⟩
      rw [lower] at neither
      cases neither.2
  rw [← Char.toNat_inj, ← Char.toNat_inj, toNat_toLower]
  split <;> omega

theorem mem_toAsciiLowercase_iff (notLetter : symbol.isAlpha = false) :
    symbol ∈ toAsciiLowercase text ↔ symbol ∈ text := by
  simp only [toAsciiLowercase, List.mem_map, toLower_eq_iff notLetter, exists_eq_right]

theorem isWhitespace_toLower (character : Char) :
    Text.isWhitespace character.toLower = Text.isWhitespace character := by
  simp only [Text.isWhitespace, toNat_toLower]
  split
  · rw [Bool.eq_iff_iff]
    simp only [Bool.or_eq_true, Bool.and_eq_true, decide_eq_true_eq, beq_iff_eq]
    omega
  · rfl

theorem trim_toAsciiLowercase (trimmed : Text.trim text = text) :
    Text.trim (toAsciiLowercase text) = toAsciiLowercase text := by
  rw [trim_eq_self_iff] at trimmed ⊢
  rw [toAsciiLowercase, List.head?_map, List.getLast?_map]
  constructor
  · rintro _ isHead
    rcases Option.map_eq_some_iff.mp isHead with ⟨character, first, rfl⟩
    rw [isWhitespace_toLower]
    exact trimmed.1 character first
  · rintro _ isLast
    rcases Option.map_eq_some_iff.mp isLast with ⟨character, last, rfl⟩
    rw [isWhitespace_toLower]
    exact trimmed.2 character last

theorem splitOnce_toAsciiLowercase (notLetter : symbol.isAlpha = false) :
    Text.splitOnce symbol (toAsciiLowercase text) = (Text.splitOnce symbol text).map fun parts =>
      (toAsciiLowercase parts.1, toAsciiLowercase parts.2) := by
  induction text with
  | nil => rfl
  | cons character text ih =>
      have lowered : toAsciiLowercase (character :: text) =
          character.toLower :: toAsciiLowercase text := rfl
      rw [lowered, Text.splitOnce, Text.splitOnce]
      by_cases isSeparator : character = symbol
      · rw [if_pos ((toLower_eq_iff notLetter).mpr isSeparator), if_pos isSeparator]
        rfl
      · rw [if_neg (fun same => isSeparator ((toLower_eq_iff notLetter).mp same)),
          if_neg isSeparator, ih, Option.map_map, Option.map_map]
        rfl

variable (ip : IpText) {host normalized : List Char}

theorem IpText.isIpv6_lowercase (text : List Char) :
    ip.isIpv6 (toAsciiLowercase text) = ip.isIpv6 text := by
  rw [Bool.eq_iff_iff, ip.isIpv6_iff, ip.isIpv6_iff, ip.reprint_lowercase,
    mem_toAsciiLowercase_iff (by decide)]

theorem IpText.namesZone_lowercase (text : List Char) :
    namesZone ip.toIpSyntax (toAsciiLowercase text) = namesZone ip.toIpSyntax text := by
  rw [namesZone, namesZone, splitOnce_toAsciiLowercase (by decide)]
  cases Text.splitOnce '%' text with
  | none => rfl
  | some parts =>
      have colon : (toAsciiLowercase parts.2).contains ':' = parts.2.contains ':' := by
        rw [Bool.eq_iff_iff, List.contains_iff_mem, List.contains_iff_mem,
          mem_toAsciiLowercase_iff (by decide)]
      simp only [Option.map_some, ip.isIpv6_lowercase, colon]

/-- What reading the host of an EggPool endpoint leaves is normal. -/
theorem IpText.normalHost_of_eggpoolNormalizeHost
    (normalizes : eggpoolNormalizeHost ip.toIpSyntax host = .ok normalized) :
    NormalHost ip.toIpSyntax normalized := by
  have toOption := eggpoolNormalizeHost_eq ip.toIpSyntax host
  rw [normalizes, Except.toOption] at toOption
  split at toOption
  · cases toOption
  · rename_i nonempty
    split at toOption
    · rename_i zoned
      exact ip.normalHost_of_encodeZone (Fleet.trim_trim host) zoned toOption.symm
    · rename_i unzoned
      cases toOption
      cases reprints : ip.reprint (Text.trim host) with
      | some printed => exact .address printed (ip.reprint_reprint _ _ reprints)
      | none =>
          rw [Option.getD_none]
          refine .name _ ?_ (trim_toAsciiLowercase (Fleet.trim_trim host)) ?_ ?_
          · simpa [toAsciiLowercase] using nonempty
          · rw [ip.reprint_lowercase, reprints]
          · rw [ip.namesZone_lowercase]
            exact Bool.eq_false_iff.mpr unzoned

end LowerCase

section Loopback

/-- A reader of addresses that knows `::1` only. -/
def readLoopback (text : List Char) : Option (List Char) :=
  if text = [':', ':', '1'] then some text else none

theorem readLoopback_eq_some_iff {text printed : List Char} :
    readLoopback text = some printed ↔ text = [':', ':', '1'] ∧ printed = text := by
  rw [readLoopback]
  split
  · rename_i isLoopback
    simp [isLoopback, eq_comm]
  · rename_i other
    simp [other]

theorem isSome_readLoopback_iff {text : List Char} :
    (readLoopback text).isSome = true ↔ text = [':', ':', '1'] := by
  rw [Option.isSome_iff_exists]
  simp only [readLoopback_eq_some_iff, exists_and_left, exists_eq, and_true]

def IpText.loopback : IpText where
  isIpv6 text := text = [':', ':', '1']
  reprint := readLoopback
  reprint_printable := by
    intro text printed reprinted
    rcases readLoopback_eq_some_iff.mp reprinted with ⟨rfl, rfl⟩
    exact List.all_iff_forall_prop.mp (by decide)
  reprint_nil := rfl
  reprint_reprint := by
    intro text printed reprinted
    rcases readLoopback_eq_some_iff.mp reprinted with ⟨rfl, rfl⟩
    exact reprinted
  alphabet := by
    intro text isAddress
    rw [isSome_readLoopback_iff.mp isAddress]
    exact List.all_iff_forall_prop.mp (by decide)
  two_le_count_colon := by
    intro text isAddress _
    rw [isSome_readLoopback_iff.mp isAddress]
    decide
  isIpv6_iff := by
    intro text
    rw [isSome_readLoopback_iff, decide_eq_true_eq]
    constructor
    · rintro rfl
      exact ⟨rfl, by decide⟩
    · exact And.left
  reprint_lowercase := by
    intro text
    have same : toAsciiLowercase text = [':', ':', '1'] ↔ text = [':', ':', '1'] := by
      constructor
      · intro lowered
        rcases List.map_eq_cons_iff.mp lowered with ⟨first, rest, rfl, isFirst, lowered⟩
        rcases List.map_eq_cons_iff.mp lowered with ⟨second, rest, rfl, isSecond, lowered⟩
        rcases List.map_eq_cons_iff.mp lowered with ⟨third, rest, rfl, isThird, lowered⟩
        rw [List.map_eq_nil_iff.mp lowered, (toLower_eq_iff (by decide)).mp isFirst,
          (toLower_eq_iff (by decide)).mp isSecond, (toLower_eq_iff (by decide)).mp isThird]
      · rintro rfl
        rfl
    by_cases isLoopback : text = [':', ':', '1']
    · rw [isLoopback]
      rfl
    · rw [readLoopback, if_neg (fun lowered => isLoopback (same.mp lowered)), readLoopback,
        if_neg isLoopback]

end Loopback

end Gregg.ConfigFile
