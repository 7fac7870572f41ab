import DenonAvr.Infrastructure.Text
import DenonAvr.Library.Utf8

/-!
# Receiver discovery

What SSDP discovery lists: one entry for each host and location that answered as a receiver, which is then enriched by
a probe of the host's description.

The probe replaces the location, which is a part of what made the entry unique. So a receiver is listed twice as soon
as two of its entries get the location of the description (`listedOnce_iff`).
-/

namespace DenonAvr.Infrastructure

open Domain Library

/-! ### Addresses -/

structure Ipv4Addr where
  a : UInt8
  b : UInt8
  c : UInt8
  d : UInt8
deriving DecidableEq

structure SocketAddr where
  ip : Ipv4Addr
  port : ℕ
deriving DecidableEq

def octetText (octet : UInt8) : List Char := Nat.toDigits 10 octet.toNat

def Ipv4Addr.toString (ip : Ipv4Addr) : String :=
  String.ofList (['.'].intercalate [octetText ip.a, octetText ip.b, octetText ip.c, octetText ip.d])

/-- A decimal number up to 255 without leading zeros. -/
def parseOctet (digits : List Char) : Option UInt8 :=
  if digits.isEmpty || !digits.all Char.isDigit || decide (3 < digits.length) ||
      (digits.head? == some '0' && decide (1 < digits.length)) then none
  else
    let value := Nat.ofDigitChars 10 digits 0
    if value < 256 then some (UInt8.ofNat value) else none

/-- `host.parse::<Ipv4Addr>()`. -/
def Ipv4Addr.parse (host : String) : Option Ipv4Addr :=
  match (host.toList.splitOn '.').map parseOctet with
  | [some a, some b, some c, some d] => some ⟨a, b, c, d⟩
  | _ => none

/-! ### Responses -/

structure ReceiverEndpoint where
  host : String
  port : ℕ
deriving DecidableEq

structure DiscoveredReceiver where
  address : ReceiverEndpoint
  location : Option String
  server : Option String
  model : Option String
  searchTarget : Option String
  uniqueServiceName : Option String
deriving DecidableEq

inductive DiscoveryError
  | invalidResponse (message : String)
deriving DecidableEq

/-- The headers of a response, by their names in lower case. -/
def headersOf (text : List Char) : List (List Char × List Char) :=
  ((textLines text).drop 1).filterMap fun line =>
    (splitOnce [':'] line).map fun (name, value) => (toAsciiLowercase (trim name), trim value)

/-- The last of the headers of one name. -/
def header (headers : List (List Char × List Char)) (name : String) : Option String :=
  (headers.reverse.lookup name.toList).map String.ofList

def parseResponse (packet : List UInt8) (source : SocketAddr) : Except DiscoveryError DiscoveredReceiver :=
  match Utf8.decode packet with
  | none => .error (.invalidResponse "response is not UTF-8")
  | some text =>
    let headers := headersOf text
    if headers.isEmpty then .error (.invalidResponse "no headers")
    else .ok
      { address := ⟨source.ip.toString, source.port⟩
        location := header headers "location"
        server := header headers "server"
        model := (header headers "model").or (header headers "friendlyname")
        searchTarget := header headers "st"
        uniqueServiceName := header headers "usn" }

/-- The markers of the receivers that are listed. -/
def familyMarkers : List String := ["denon", "marantz", "heos", "aios"]

def isDenonFamily (receiver : DiscoveredReceiver) : Bool :=
  [receiver.location, receiver.server, receiver.model, receiver.searchTarget, receiver.uniqueServiceName].reduceOption.any
    fun value => familyMarkers.any fun marker => decide (marker.toList <:+: toAsciiLowercase value.toList)

abbrev ReceiverKey := String × Option String

def receiverKey (receiver : DiscoveredReceiver) : ReceiverKey := (receiver.address.host, receiver.location)

/-! ### Descriptions -/

def descriptionPort : ℕ := 60006

def descriptionUrl (host : String) : String := "http://" ++ host ++ ":60006/upnp/desc/aios_device/aios_device.xml"

def xmlTag (xml : List Char) (tag : String) : Option String := do
  let (_, rest) ← splitOnce ("<" ++ tag ++ ">").toList xml
  let (text, _) ← splitOnce ("</" ++ tag ++ ">").toList rest
  pure (String.ofList (trim text))

def parseDescription (xml : List Char) (address : SocketAddr) : Option DiscoveredReceiver := do
  let manufacturer ← xmlTag xml "manufacturer"
  if toAsciiLowercase manufacturer.toList = "denon".toList ∨ toAsciiLowercase manufacturer.toList = "marantz".toList then
    some
      { address := ⟨address.ip.toString, address.port⟩
        location := some (descriptionUrl address.ip.toString)
        server := some (manufacturer ++ " UPnP")
        model := (xmlTag xml "modelName").or (xmlTag xml "friendlyName")
        searchTarget := xmlTag xml "deviceType"
        uniqueServiceName := xmlTag xml "UDN" }
  else none

/-- What the probe makes of the bytes it has read, if it got so far. -/
def probeReceiverDescription (ip : Ipv4Addr) (response : Option (List UInt8)) : Option DiscoveredReceiver := do
  let text ← Utf8.decode (← response)
  let (_, body) ← (splitOnce "\r\n\r\n".toList text).or (splitOnce "\n\n".toList text)
  parseDescription body ⟨ip, descriptionPort⟩

def enrichDiscoveredReceiver (receiver : DiscoveredReceiver) (response : Option (List UInt8)) : DiscoveredReceiver :=
  match (Ipv4Addr.parse receiver.address.host).bind fun ip => probeReceiverDescription ip response with
  | none => receiver
  | some description =>
    { receiver with
      model := description.model.or receiver.model
      location := description.location.or receiver.location
      searchTarget := description.searchTarget.or receiver.searchTarget
      uniqueServiceName := description.uniqueServiceName.or receiver.uniqueServiceName }

/-! ### The list -/

/-- `None` comes before any location. -/
def locationLe : Option String → Option String → Bool
  | none, _ => true
  | some _, none => false
  | some a, some b => decide (a ≤ b)

/-- The order of the keys of the map. -/
def keyLe (k k' : ReceiverKey) : Bool := decide (k.1 < k'.1) || (k.1 == k'.1 && locationLe k.2 k'.2)

/-- `receivers.entry(receiver_key(&receiver)).or_insert(receiver)`, on the values in the order of their keys. -/
def entryOrInsert (receivers : List DiscoveredReceiver) (receiver : DiscoveredReceiver) : List DiscoveredReceiver :=
  if receiverKey receiver ∈ receivers.map receiverKey then receivers
  else receivers.orderedInsert (fun r r' => keyLe (receiverKey r) (receiverKey r') = true) receiver

def accepted (response : List UInt8 × SocketAddr) : Option DiscoveredReceiver :=
  (parseResponse response.1 response.2).toOption.filter isDenonFamily

/-- The entries for the responses, in the order they arrived. -/
def ssdpEntries (responses : List (List UInt8 × SocketAddr)) : List DiscoveredReceiver :=
  (responses.filterMap accepted).foldl entryOrInsert []

/-- What is read from the hosts of the networks, in the order they are done. -/
def scanned (probes : List (Ipv4Addr × Option (List UInt8))) : List DiscoveredReceiver :=
  (probes.filterMap fun (ip, response) => probeReceiverDescription ip response).foldl entryOrInsert []

/-- What the probes that follow read: of the host of an entry, or of the hosts of the networks when there is none. -/
structure Probes where
  entry : ReceiverKey → Option (List UInt8)
  scan : List (Ipv4Addr × Option (List UInt8))

/-- The list that discovery returns. -/
def discoverReceivers (responses : List (List UInt8 × SocketAddr)) (probes : Probes) : List DiscoveredReceiver :=
  if (ssdpEntries responses).isEmpty then scanned probes.scan
  else (ssdpEntries responses).map fun receiver => enrichDiscoveredReceiver receiver (probes.entry (receiverKey receiver))

/-- The receiver that a command without a host takes from the list. -/
def selectDiscovered (receivers : List DiscoveredReceiver) (requestedIndex : Option ℕ) : Except String DiscoveredReceiver :=
  match requestedIndex with
  | some index =>
    match receivers[index]? with
    | some receiver => .ok receiver
    | none => .error "receiver selection is out of range"
  | none =>
    match receivers with
    | [receiver] => .ok receiver
    | [] => .error "no receivers discovered"
    | _ => .error "receiver selection is required when multiple receivers are discovered"

/-! ### The host of an entry -/

section Address
variable {ip : Ipv4Addr} {source : SocketAddr} {packet : List UInt8} {receiver : DiscoveredReceiver}

theorem parseOctet_octetText (octet : UInt8) : parseOctet (octetText octet) = some octet := by
  have hall : ∀ n < 256, parseOctet (Nat.toDigits 10 n) = some (UInt8.ofNat n) := by decide +kernel
  exact (hall octet.toNat octet.toNat_lt).trans (by rw [UInt8.ofNat_toNat])

theorem dot_notMem_octetText (octet : UInt8) : '.' ∉ octetText octet := by
  intro hdot
  exact absurd (Nat.isDigit_of_mem_toDigits (by decide) (by decide) hdot) (by decide)

theorem parse_toString (ip : Ipv4Addr) : Ipv4Addr.parse ip.toString = some ip := by
  have hsplit : ip.toString.toList.splitOn '.' = [octetText ip.a, octetText ip.b, octetText ip.c, octetText ip.d] := by
    unfold Ipv4Addr.toString
    rw [String.toList_ofList]
    refine List.splitOn_intercalate '.' ?_ (by simp)
    simp [dot_notMem_octetText]
  unfold Ipv4Addr.parse
  rw [hsplit]
  simp [parseOctet_octetText]

theorem host_of_parseResponse (h : parseResponse packet source = .ok receiver) :
    receiver.address.host = source.ip.toString := by
  unfold parseResponse at h
  split at h
  · cases h
  · dsimp only at h
    split_ifs at h
    cases h
    rfl

/-- Every entry has the address of a host. -/
theorem host_of_accepted {response : List UInt8 × SocketAddr} (h : accepted response = some receiver) :
    ∃ ip : Ipv4Addr, receiver.address.host = ip.toString := by
  obtain ⟨hparse, -⟩ := Option.filter_eq_some_iff.mp h
  have hparsed : parseResponse response.1 response.2 = .ok receiver := by
    cases hresult : parseResponse response.1 response.2 with
    | error error =>
      rw [hresult] at hparse
      cases hparse
    | ok receiver' =>
      rw [hresult] at hparse
      cases hparse
      rfl
  exact ⟨response.2.ip, host_of_parseResponse hparsed⟩

end Address

/-! ### One entry for each key -/

section Entries
variable {receivers more : List DiscoveredReceiver} {receiver r : DiscoveredReceiver}

theorem mem_entryOrInsert (h : r ∈ entryOrInsert receivers receiver) : r ∈ receivers ∨ r = receiver := by
  unfold entryOrInsert at h
  split_ifs at h
  · exact .inl h
  · exact (List.mem_orderedInsert _ |>.mp h).symm

/-- Nothing is lost of what there is, and the key is there. -/
theorem keys_entryOrInsert (receivers : List DiscoveredReceiver) (receiver : DiscoveredReceiver) :
    (∀ r ∈ receivers, r ∈ entryOrInsert receivers receiver) ∧
      receiverKey receiver ∈ (entryOrInsert receivers receiver).map receiverKey := by
  unfold entryOrInsert
  split_ifs with hkey
  · exact ⟨fun _ h => h, hkey⟩
  · refine ⟨fun r h => (List.mem_orderedInsert _).mpr (.inr h), List.mem_map_of_mem ?_⟩
    exact (List.mem_orderedInsert _).mpr (.inl rfl)

theorem nodup_entryOrInsert (h : (receivers.map receiverKey).Nodup) (receiver : DiscoveredReceiver) :
    ((entryOrInsert receivers receiver).map receiverKey).Nodup := by
  unfold entryOrInsert
  split_ifs with hkey
  · exact h
  · rw [((List.perm_orderedInsert _ receiver receivers).map receiverKey).nodup_iff]
    exact List.nodup_cons.mpr ⟨hkey, h⟩

theorem foldl_entryOrInsert (receivers more : List DiscoveredReceiver) (h : (receivers.map receiverKey).Nodup) :
    ((more.foldl entryOrInsert receivers).map receiverKey).Nodup ∧
      (∀ r ∈ more.foldl entryOrInsert receivers, r ∈ receivers ∨ r ∈ more) ∧
      (∀ r ∈ receivers, r ∈ more.foldl entryOrInsert receivers) ∧
      ∀ r ∈ more, receiverKey r ∈ (more.foldl entryOrInsert receivers).map receiverKey := by
  induction more generalizing receivers with
  | nil => exact ⟨h, fun _ => .inl, fun _ h => h, fun _ h => nomatch h⟩
  | cons receiver more ih =>
    obtain ⟨hnodup, hmem, hkept, hkeys⟩ := ih _ (nodup_entryOrInsert h receiver)
    obtain ⟨hkept', hkey⟩ := keys_entryOrInsert receivers receiver
    refine ⟨hnodup, fun r hr => ?_, fun r hr => hkept r (hkept' r hr), fun r hr => ?_⟩
    · rcases hmem r hr with hr | hr
      · rcases mem_entryOrInsert hr with hr | rfl
        · exact .inl hr
        · exact .inr List.mem_cons_self
      · exact .inr (List.mem_cons_of_mem _ hr)
    · rcases List.mem_cons.mp hr with rfl | hr
      · obtain ⟨r', hr', heq⟩ := List.mem_map.mp hkey
        exact List.mem_map.mpr ⟨r', hkept r' hr', heq⟩
      · exact hkeys r hr

end Entries

/-! ### Entries that are enriched -/

/-- The probe of the entry's host finds a description. -/
def answered (probes : Probes) (receiver : DiscoveredReceiver) : Bool :=
  ((Ipv4Addr.parse receiver.address.host).bind fun ip =>
    probeReceiverDescription ip (probes.entry (receiverKey receiver))).isSome

/-- The entry has the location of the description, or gets it. -/
def Bound (probes : Probes) (receiver : DiscoveredReceiver) : Prop :=
  answered probes receiver = true ∨ receiver.location = some (descriptionUrl receiver.address.host)

/-- The location of the entry in the list. -/
def listedLocation (probes : Probes) (receiver : DiscoveredReceiver) : Option String :=
  if answered probes receiver then some (descriptionUrl receiver.address.host) else receiver.location

def enriched (probes : Probes) (receiver : DiscoveredReceiver) : DiscoveredReceiver :=
  enrichDiscoveredReceiver receiver (probes.entry (receiverKey receiver))

section Enriched
variable {probes : Probes} {receiver r r' : DiscoveredReceiver} {ip : Ipv4Addr} {response : Option (List UInt8)}

theorem location_of_probe {description : DiscoveredReceiver} (h : probeReceiverDescription ip response = some description) :
    description.location = some (descriptionUrl ip.toString) := by
  unfold probeReceiverDescription at h
  obtain ⟨bytes, -, h⟩ := Option.bind_eq_some_iff.mp h
  obtain ⟨text, -, h⟩ := Option.bind_eq_some_iff.mp h
  obtain ⟨⟨head, body⟩, -, h⟩ := Option.bind_eq_some_iff.mp h
  unfold parseDescription at h
  obtain ⟨manufacturer, -, h⟩ := Option.bind_eq_some_iff.mp h
  split_ifs at h
  cases h
  rfl

/-- The probe replaces the location. -/
theorem receiverKey_enriched (hhost : receiver.address.host = ip.toString) :
    receiverKey (enriched probes receiver) = (receiver.address.host, listedLocation probes receiver) := by
  unfold enriched enrichDiscoveredReceiver listedLocation answered
  rw [hhost, parse_toString, Option.bind_some]
  cases hprobe : probeReceiverDescription ip (probes.entry (receiverKey receiver)) with
  | none =>
    rw [← hhost]
    rfl
  | some description =>
    simp only [Option.isSome_some, if_true]
    rw [← hhost]
    refine Prod.ext rfl ?_
    show description.location.or receiver.location = _
    rw [location_of_probe hprobe, hhost]
    rfl

theorem bound_congr (h : receiverKey r = receiverKey r') : Bound probes r ↔ Bound probes r' := by
  obtain ⟨hhost, hlocation⟩ := Prod.mk.inj h
  unfold Bound answered
  rw [h, hhost, hlocation]

theorem listedLocation_of_bound (h : Bound probes receiver) :
    listedLocation probes receiver = some (descriptionUrl receiver.address.host) := by
  unfold listedLocation
  split_ifs with hanswered
  · rfl
  · exact h.resolve_left hanswered

theorem listedLocation_of_not_bound (h : ¬ Bound probes receiver) :
    listedLocation probes receiver = receiver.location ∧
      receiver.location ≠ some (descriptionUrl receiver.address.host) := by
  obtain ⟨hanswered, hlocation⟩ := not_or.mp h
  exact ⟨if_neg hanswered, hlocation⟩

/-- Two entries of one host are one in the end when both have the description's location. -/
theorem receiverKey_enriched_eq_iff (hr : ∃ ip : Ipv4Addr, r.address.host = ip.toString)
    (hr' : ∃ ip : Ipv4Addr, r'.address.host = ip.toString) :
    receiverKey (enriched probes r) = receiverKey (enriched probes r') ↔
      r.address.host = r'.address.host ∧ (r.location = r'.location ∧ ¬ Bound probes r ∧ ¬ Bound probes r' ∨
        Bound probes r ∧ Bound probes r') := by
  obtain ⟨ip, hip⟩ := hr
  obtain ⟨ip', hip'⟩ := hr'
  rw [receiverKey_enriched hip, receiverKey_enriched hip', Prod.mk.injEq]
  refine and_congr_right fun hhost => ?_
  by_cases h : Bound probes r <;> by_cases h' : Bound probes r'
  · rw [listedLocation_of_bound h, listedLocation_of_bound h', hhost]
    exact iff_of_true rfl (.inr ⟨h, h'⟩)
  · obtain ⟨heq, hne⟩ := listedLocation_of_not_bound h'
    rw [listedLocation_of_bound h, heq, hhost]
    refine iff_of_false hne.symm ?_
    simp [h, h']
  · obtain ⟨heq, hne⟩ := listedLocation_of_not_bound h
    rw [listedLocation_of_bound h', heq, ← hhost]
    refine iff_of_false hne ?_
    simp [h, h']
  · rw [(listedLocation_of_not_bound h).1, (listedLocation_of_not_bound h').1]
    simp [h, h']

end Enriched

/-! ### The list that is returned -/

/-- The receivers that answered, once for each response. -/
def responders (responses : List (List UInt8 × SocketAddr)) : List DiscoveredReceiver := responses.filterMap accepted

/-- What discovery promises: a list without duplicates, from which the one receiver there is can be selected, whatever
the locations it answered with, if it answers the probes. -/
structure ListedOnce (responses : List (List UInt8 × SocketAddr)) (probes : Probes) : Prop where
  distinct : ((discoverReceivers responses probes).map receiverKey).Nodup
  selected : ∀ host, responders responses ≠ [] →
    (∀ r ∈ responders responses, r.address.host = host ∧ answered probes r = true) →
      ∃ receiver, selectDiscovered (discoverReceivers responses probes) none = .ok receiver

/-- Of the locations a host answered with, one at most is the description's or is replaced by it. -/
def OneDescription (responses : List (List UInt8 × SocketAddr)) (probes : Probes) : Prop :=
  ∀ r ∈ responders responses, ∀ r' ∈ responders responses, r.address.host = r'.address.host →
    r.location ≠ r'.location → ¬ (Bound probes r ∧ Bound probes r')

section ListedOnce
variable {responses : List (List UInt8 × SocketAddr)} {probes : Probes}

theorem host_of_responder {r : DiscoveredReceiver} (h : r ∈ responders responses) :
    ∃ ip : Ipv4Addr, r.address.host = ip.toString := by
  obtain ⟨response, -, hresponse⟩ := List.mem_filterMap.mp h
  exact host_of_accepted hresponse

/-- The entries are responders, one for each key of one. -/
theorem ssdpEntries_spec (responses : List (List UInt8 × SocketAddr)) :
    ((ssdpEntries responses).map receiverKey).Nodup ∧ (∀ r ∈ ssdpEntries responses, r ∈ responders responses) ∧
      ∀ r ∈ responders responses, ∃ e ∈ ssdpEntries responses, receiverKey e = receiverKey r := by
  obtain ⟨hnodup, hmem, -, hkeys⟩ := foldl_entryOrInsert [] (responders responses) List.nodup_nil
  refine ⟨hnodup, fun r hr => (hmem r hr).resolve_left List.not_mem_nil, fun r hr => ?_⟩
  exact List.mem_map.mp (hkeys r hr)

theorem discoverReceivers_of_responders (h : responders responses ≠ []) (probes : Probes) :
    discoverReceivers responses probes = (ssdpEntries responses).map (enriched probes) := by
  obtain ⟨r, hr⟩ := List.exists_mem_of_ne_nil _ h
  obtain ⟨e, he, -⟩ := (ssdpEntries_spec responses).2.2 r hr
  have hne : (ssdpEntries responses).isEmpty = false := List.isEmpty_eq_false_iff_exists_mem.mpr ⟨e, he⟩
  unfold discoverReceivers
  rw [hne]
  rfl

theorem discoverReceivers_of_none (h : responders responses = []) (probes : Probes) :
    discoverReceivers responses probes = scanned probes.scan := by
  unfold discoverReceivers ssdpEntries
  rw [show responses.filterMap accepted = [] from h]
  rfl

theorem eq_of_receiverKey_eq {e e' : DiscoveredReceiver} (he : e ∈ ssdpEntries responses) (he' : e' ∈ ssdpEntries responses)
    (h : receiverKey e = receiverKey e') : e = e' :=
  List.inj_on_of_nodup_map (ssdpEntries_spec responses).1 he he' h

theorem nodup_iff (h : responders responses ≠ []) :
    ((discoverReceivers responses probes).map receiverKey).Nodup ↔ OneDescription responses probes := by
  obtain ⟨hnodup, hmem, hkeys⟩ := ssdpEntries_spec responses
  rw [discoverReceivers_of_responders h, List.map_map, List.nodup_map_iff_inj_on (List.Nodup.of_map _ hnodup)]
  constructor
  · rintro hinj r hr r' hr' hhost hlocation ⟨hbound, hbound'⟩
    obtain ⟨e, he, hkey⟩ := hkeys r hr
    obtain ⟨e', he', hkey'⟩ := hkeys r' hr'
    have heq := hinj e he e' he' ((receiverKey_enriched_eq_iff (host_of_responder (hmem e he))
      (host_of_responder (hmem e' he'))).mpr ⟨?_, .inr ⟨(bound_congr hkey).mpr hbound, (bound_congr hkey').mpr hbound'⟩⟩)
    · subst heq
      exact hlocation (Prod.mk.inj (hkey.symm.trans hkey')).2
    · exact ((Prod.mk.inj hkey).1.trans hhost).trans (Prod.mk.inj hkey').1.symm
  · intro hone e he e' he' hsame
    obtain ⟨hhost, hcases⟩ := (receiverKey_enriched_eq_iff (host_of_responder (hmem e he))
      (host_of_responder (hmem e' he'))).mp hsame
    by_cases hlocation : e.location = e'.location
    · exact eq_of_receiverKey_eq he he' (Prod.ext hhost hlocation)
    · rcases hcases with ⟨hsame, -⟩ | hbound
      · exact absurd hsame hlocation
      · exact absurd hbound (hone e (hmem e he) e' (hmem e' he') hhost hlocation)

/-- One host whose entries are all answered has one of them. -/
theorem selected_of_oneDescription (hone : OneDescription responses probes) {host : String}
    (h : responders responses ≠ [])
    (hall : ∀ r ∈ responders responses, r.address.host = host ∧ answered probes r = true) :
    ∃ receiver, selectDiscovered (discoverReceivers responses probes) none = .ok receiver := by
  obtain ⟨hnodup, hmem, hkeys⟩ := ssdpEntries_spec responses
  have hsame : ∀ e ∈ ssdpEntries responses, ∀ e' ∈ ssdpEntries responses, e = e' := by
    intro e he e' he'
    obtain ⟨hhost, hanswered⟩ := hall e (hmem e he)
    obtain ⟨hhost', hanswered'⟩ := hall e' (hmem e' he')
    have heq : e.address.host = e'.address.host := hhost.trans hhost'.symm
    refine eq_of_receiverKey_eq he he' (Prod.ext heq ?_)
    by_contra hlocation
    exact hone e (hmem e he) e' (hmem e' he') heq hlocation ⟨.inl hanswered, .inl hanswered'⟩
  rw [discoverReceivers_of_responders h]
  cases hentries : ssdpEntries responses with
  | nil =>
    obtain ⟨r, hr⟩ := List.exists_mem_of_ne_nil _ h
    obtain ⟨e, he, -⟩ := hkeys r hr
    rw [hentries] at he
    cases he
  | cons e rest =>
    cases rest with
    | nil => exact ⟨enriched probes e, rfl⟩
    | cons e' rest =>
      exfalso
      rw [hentries] at hsame hnodup
      obtain rfl := hsame e List.mem_cons_self e' (List.mem_cons_of_mem _ List.mem_cons_self)
      simp at hnodup

end ListedOnce

/-- **Each receiver is listed once** exactly when of the locations that a host answers with, one at most is that of its
description, or is replaced by it after a probe. -/
theorem listedOnce_iff (responses : List (List UInt8 × SocketAddr)) (probes : Probes) :
    ListedOnce responses probes ↔ OneDescription responses probes := by
  by_cases h : responders responses = []
  · have hone : OneDescription responses probes := by
      intro r hr
      rw [h] at hr
      cases hr
    refine iff_of_true ⟨?_, fun _ hne => absurd h hne⟩ hone
    rw [discoverReceivers_of_none h]
    exact (foldl_entryOrInsert [] _ List.nodup_nil).1
  · exact ⟨fun hlisted => (nodup_iff h).mp hlisted.distinct, fun hone =>
      ⟨(nodup_iff h).mpr hone, fun host _ hall => selected_of_oneDescription hone h hall⟩⟩

/-! ### One receiver, two search targets -/

section Example

def avrAddress : SocketAddr := ⟨⟨192, 0, 2, 4⟩, 1900⟩

/-- The answers to the searches for a Denon and for an AIOS device. -/
def avrResponses : List (List UInt8 × SocketAddr) :=
  [("HTTP/1.1 200 OK\r\nLOCATION: http://192.0.2.4:8080/description.xml\r\nST: urn:schemas-denon-com:device:ACT-Denon:1\r\n\r\n",
    avrAddress),
    ("HTTP/1.1 200 OK\r\nLOCATION: http://192.0.2.4:60006/upnp/desc/aios_device/aios_device.xml\r\n\r\n", avrAddress)].map
    fun (text, source) => (Utf8.encode text.toList, source)

/-- The description, which every probe reads. -/
def avrProbes : Probes where
  entry := fun _ => some (Utf8.encode
    "HTTP/1.0 200 OK\r\n\r\n<device><manufacturer>Denon</manufacturer><modelName>AVC-X3800H</modelName></device>".toList)
  scan := []

theorem selectDiscovered_avr :
    selectDiscovered (discoverReceivers avrResponses avrProbes) none =
      .error "receiver selection is required when multiple receivers are discovered" := by
  decide +kernel

/-- The receiver is listed twice, under one key. -/
theorem not_listedOnce_avr : ¬ ListedOnce avrResponses avrProbes := by
  intro h
  have hkeys : (discoverReceivers avrResponses avrProbes).map receiverKey =
      [("192.0.2.4", some (descriptionUrl "192.0.2.4")), ("192.0.2.4", some (descriptionUrl "192.0.2.4"))] := by
    decide +kernel
  have hdistinct := h.distinct
  rw [hkeys] at hdistinct
  simp at hdistinct

end Example

end DenonAvr.Infrastructure
