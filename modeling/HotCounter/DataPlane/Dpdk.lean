import HotCounter.Foundation.InPlace
import HotCounter.DataPlane.UdpProtocol
import HotCounter.Engine.Recovery

/-!
# The poll-mode data plane

A worker of `counterd_dpdk` owns the mbufs that the receive burst hands to it. It answers ARP
requests and counter requests *in the received buffer*, exchanging addresses and ports and writing
the reply over the request, and frees what it does not answer.

`Datagram` is the frame taken apart: what a worker does in place is the plain function
`Datagram.answer` on the parts (`answerFrame_eq_iff`), and the reply it sends decodes to the
engine's answer. The library under the worker, DPDK, is not part of the repository: the checksum
function is a parameter, and `rte_eth_rx_burst` and `rte_eth_tx_burst` are the steps of a run.
-/

namespace HotCounter

open Foundation UdpCounterProtocol

namespace Dpdk

/-! ### Packet buffers -/

/-- What the worker reads of an `rte_mbuf`. The buffer is the data room of the first segment from
the start of the frame on; the pool of `main` gives every mbuf a data room of 2048 bytes. -/
structure Mbuf where
  /-- The identity of the mbuf, for the accounts of a run. -/
  handle : ℕ
  nbSegs : ℕ
  pktLen : ℕ
  buffer : List UInt8
  room : 2048 ≤ buffer.length
  contiguous : nbSegs = 1 → pktLen ≤ buffer.length

/-- An mbuf after its data was edited. -/
def Mbuf.edit (packet : Mbuf) (edited : List UInt8) (h : edited.length = packet.buffer.length) :
    Mbuf :=
  { packet with
    buffer := edited
    room := h ▸ packet.room
    contiguous := fun hsegs => h ▸ packet.contiguous hsegs }

/-- `RedirectEndpoint`. -/
structure RedirectEndpoint where
  ipv4HostOrder : ℕ := 0
  port : ℕ := 0
  ipv4_lt : ipv4HostOrder < 2 ^ 32 := by decide
  port_lt : port < 2 ^ 16 := by decide

/-- What a `WorkerContext` holds besides the engine and the queue it polls. -/
structure WorkerContext where
  udpPort : ℕ
  redirect : RedirectEndpoint

/-- `sizeof(rte_ether_hdr)`. -/
def kEthernetHeader : ℕ := 14

/-- `sizeof(rte_arp_hdr)`. -/
def kArpHeader : ℕ := 28

/-- `sizeof(rte_ipv4_hdr)`: without options. -/
def kIpv4Header : ℕ := 20

/-- `sizeof(rte_udp_hdr)`. -/
def kUdpHeader : ℕ := 8

/-- `RTE_ETHER_TYPE_ARP`. -/
def kEtherTypeArp : ℕ := 0x0806

/-- `RTE_ETHER_TYPE_IPV4`. -/
def kEtherTypeIpv4 : ℕ := 0x0800

/-- `RTE_ARP_OP_REQUEST`. -/
def kArpRequest : ℕ := 1

/-- `RTE_ARP_OP_REPLY`. -/
def kArpReply : ℕ := 2

/-- `IPPROTO_UDP`. -/
def kProtocolUdp : UInt8 := 17

/-- `reverse_ethernet`. -/
def reverseEthernet (buffer : List UInt8) : List UInt8 := exchange 6 0 6 buffer

/-- The buffer that `reply_arp` leaves. -/
def arpReply (buffer : List UInt8) : List UInt8 :=
  let requesterMac := slice (kEthernetHeader + 8) 6 buffer
  let requesterIp := slice (kEthernetHeader + 14) 4 buffer
  let responderMac := slice (kEthernetHeader + 18) 6 buffer
  let responderIp := slice (kEthernetHeader + 24) 4 buffer
  let buffer := reverseEthernet buffer
  let buffer := overwrite (kEthernetHeader + 6) (bigEndian 2 kArpReply) buffer
  let buffer := overwrite (kEthernetHeader + 8) responderMac buffer
  let buffer := overwrite (kEthernetHeader + 14) responderIp buffer
  let buffer := overwrite (kEthernetHeader + 18) requesterMac buffer
  overwrite (kEthernetHeader + 24) requesterIp buffer

theorem length_arpReply (buffer : List UInt8) : (arpReply buffer).length = buffer.length := by
  simp [arpReply, reverseEthernet]

/-- `reply_arp`: the edited mbuf, or nothing where the code returns false and edits nothing. A
frame of several segments is not excluded. -/
def replyArp (packet : Mbuf) : Option Mbuf :=
  if packet.pktLen < kEthernetHeader + kArpHeader then none
  else if readField 12 2 packet.buffer ≠ kEtherTypeArp then none
  else if readField (kEthernetHeader + 6) 2 packet.buffer ≠ kArpRequest then none
  else some (packet.edit (arpReply packet.buffer) (length_arpReply _))

/-- The byte with the version and the length of the IP header. -/
def versionIhl (buffer : List UInt8) : UInt8 := buffer.getD kEthernetHeader 0

/-- `ip_length` of `process_udp_request`. -/
def ipLength (buffer : List UInt8) : ℕ := (versionIhl buffer &&& 0x0F).toNat * 4

/-- The checks of `process_udp_request` and the request that passes them. -/
def udpRequest (context : WorkerContext) (packet : Mbuf) : Option UdpCounterProtocol.Request :=
  if packet.nbSegs ≠ 1 ∨
      packet.pktLen < kEthernetHeader + kIpv4Header + kUdpHeader + kFrameSize then none
  else if readField 12 2 packet.buffer ≠ kEtherTypeIpv4 then none
  else if versionIhl packet.buffer >>> 4 ≠ 4 ∨ ipLength packet.buffer < kIpv4Header ∨
      packet.buffer.getD (kEthernetHeader + 9) 0 ≠ kProtocolUdp ∨
      packet.pktLen <
        kEthernetHeader + ipLength packet.buffer + kUdpHeader + kFrameSize then none
  else if readField (kEthernetHeader + ipLength packet.buffer + 2) 2 packet.buffer ≠
      context.udpPort then none
  else
    decodeRequest
      (slice (kEthernetHeader + ipLength packet.buffer + kUdpHeader) kFrameSize packet.buffer)

/-- The fields of `WorkerContext` and of the request that `encode_reply` is given. -/
def replyFor (context : WorkerContext) (request : UdpCounterProtocol.Request) (result : Result) :
    UdpCounterProtocol.Reply :=
  ⟨request.requestId, result, request.counter, context.redirect.ipv4HostOrder,
    context.redirect.port⟩

/-- The edits of `process_udp_request`, given the length of the IP header. `rte_ipv4_cksum` is
given the header, its checksum zeroed, and returns the checksum to store. -/
def udpReply (rteIpv4Cksum : List UInt8 → ℕ) (ipLength : ℕ) (reply : List UInt8)
    (buffer : List UInt8) : List UInt8 :=
  let udp := kEthernetHeader + ipLength
  let buffer := reverseEthernet buffer
  let buffer := exchange (kEthernetHeader + 12) (kEthernetHeader + 16) 4 buffer
  let buffer := exchange udp (udp + 2) 2 buffer
  let buffer := overwrite (udp + kUdpHeader) reply buffer
  let buffer := overwrite (kEthernetHeader + 10) (bigEndian 2 0) buffer
  let buffer := overwrite (kEthernetHeader + 10)
    (bigEndian 2 (rteIpv4Cksum (slice kEthernetHeader ipLength buffer))) buffer
  overwrite (udp + 6) (bigEndian 2 0) buffer

theorem length_udpReply (rteIpv4Cksum : List UInt8 → ℕ) (ipLength : ℕ) (reply buffer : List UInt8) :
    (udpReply rteIpv4Cksum ipLength reply buffer).length = buffer.length := by
  simp [udpReply, reverseEthernet]

/-- `process_udp_request`: the edited mbuf and the engine after the request, or nothing where the
code returns false, edits nothing and does not ask the engine. -/
def processUdpRequest (rteIpv4Cksum : List UInt8 → ℕ) (context : WorkerContext)
    (engine : CounterEngine) (packet : Mbuf) : Option (Mbuf × CounterEngine) :=
  match udpRequest context packet with
  | none => none
  | some request =>
    let applied := engine.apply ⟨request.counter, request.delta, request.requestId⟩
    let reply := encodeReply (replyFor context request applied.1)
    some (packet.edit (udpReply rteIpv4Cksum (ipLength packet.buffer) reply packet.buffer)
      (length_udpReply _ _ _ _), applied.2)

/-- What the loop of `worker_main` does with a received frame: the reply to transmit, or nothing
if the frame is freed, and the engine afterwards. -/
def answerFrame (rteIpv4Cksum : List UInt8 → ℕ) (context : WorkerContext) (engine : CounterEngine)
    (packet : Mbuf) : Option Mbuf × CounterEngine :=
  match replyArp packet with
  | some reply => (some reply, engine)
  | none =>
    match processUdpRequest rteIpv4Cksum context engine packet with
    | some (reply, engine') => (some reply, engine')
    | none => (none, engine)

/-! ### A frame taken apart -/

/-- A byte string of a fixed length. -/
abbrev Octets (n : ℕ) := { bytes : List UInt8 // bytes.length = n }

/-- A number as a field. -/
def Octets.ofNat (width n : ℕ) : Octets width := ⟨bigEndian width n, length_bigEndian width n⟩

/-- An Ethernet frame that carries an ARP message for IPv4 over Ethernet. -/
structure ArpFrame where
  destinationMac : Octets 6
  sourceMac : Octets 6
  etherType : Octets 2
  /-- The hardware and protocol types and lengths. -/
  kinds : Octets 6
  opcode : Octets 2
  senderMac : Octets 6
  senderAddress : Octets 4
  targetMac : Octets 6
  targetAddress : Octets 4
  trailer : List UInt8

def ArpFrame.bytes (frame : ArpFrame) : List UInt8 :=
  frame.destinationMac ++ (frame.sourceMac ++ (frame.etherType ++ (frame.kinds ++ (frame.opcode ++
    (frame.senderMac ++ (frame.senderAddress ++ (frame.targetMac ++ (frame.targetAddress ++
      frame.trailer))))))))

/-- The answer to an ARP request: the target answers the sender. -/
def ArpFrame.answer (frame : ArpFrame) : ArpFrame :=
  { frame with
    destinationMac := frame.sourceMac
    sourceMac := frame.destinationMac
    opcode := .ofNat 2 kArpReply
    senderMac := frame.targetMac
    senderAddress := frame.targetAddress
    targetMac := frame.senderMac
    targetAddress := frame.senderAddress }

/-- The frame is an ARP request in an mbuf. -/
structure ArpFrame.Asks (frame : ArpFrame) (packet : Mbuf) : Prop where
  bytes : frame.bytes = packet.buffer
  pktLen : kEthernetHeader + kArpHeader ≤ packet.pktLen
  etherType : ofBigEndian frame.etherType = kEtherTypeArp
  opcode : ofBigEndian frame.opcode = kArpRequest

/-- An Ethernet frame that carries a UDP datagram in an IPv4 packet. -/
structure Datagram where
  destinationMac : Octets 6
  sourceMac : Octets 6
  etherType : Octets 2
  versionIhl : UInt8
  /-- From the type of service to the time to live. -/
  service : Octets 8
  protocol : UInt8
  headerChecksum : Octets 2
  sourceAddress : Octets 4
  destinationAddress : Octets 4
  options : List UInt8
  sourcePort : Octets 2
  destinationPort : Octets 2
  udpLength : Octets 2
  udpChecksum : Octets 2
  payload : Octets 40
  trailer : List UInt8

namespace Datagram

/-- The IP header. -/
def ipHeader (d : Datagram) : List UInt8 :=
  d.versionIhl :: (d.service ++ (d.protocol :: (d.headerChecksum ++ (d.sourceAddress ++
    (d.destinationAddress ++ d.options)))))

/-- What follows the IP header. -/
def segment (d : Datagram) : List UInt8 :=
  d.sourcePort ++ (d.destinationPort ++ (d.udpLength ++ (d.udpChecksum ++
    (d.payload ++ d.trailer))))

def bytes (d : Datagram) : List UInt8 :=
  d.destinationMac ++ (d.sourceMac ++ (d.etherType ++ (d.ipHeader ++ d.segment)))

/-- The datagram on its way back with another payload and with zero checksums. -/
def returned (reply : Octets 40) (d : Datagram) : Datagram :=
  { d with
    destinationMac := d.sourceMac
    sourceMac := d.destinationMac
    headerChecksum := .ofNat 2 0
    sourceAddress := d.destinationAddress
    destinationAddress := d.sourceAddress
    sourcePort := d.destinationPort
    destinationPort := d.sourcePort
    udpChecksum := .ofNat 2 0
    payload := reply }

/-- The answer to a datagram: the checksum of the header is the one of the returned datagram. -/
def answer (rteIpv4Cksum : List UInt8 → ℕ) (reply : Octets 40) (d : Datagram) : Datagram :=
  { d.returned reply with
    headerChecksum := .ofNat 2 (rteIpv4Cksum (d.returned reply).ipHeader) }

/-- The datagram is the frame of an mbuf of one segment, and its parts are where its own header
says. -/
structure Fills (d : Datagram) (packet : Mbuf) : Prop where
  bytes : d.bytes = packet.buffer
  header : 20 + d.options.length = (d.versionIhl &&& 0x0F).toNat * 4
  nbSegs : packet.nbSegs = 1
  pktLen : kEthernetHeader + d.ipHeader.length + kUdpHeader + kFrameSize ≤ packet.pktLen

/-- The datagram is a counter request for the port of the worker. -/
structure Asks (d : Datagram) (context : WorkerContext) (request : UdpCounterProtocol.Request) :
    Prop where
  etherType : ofBigEndian d.etherType = kEtherTypeIpv4
  version : d.versionIhl >>> 4 = 4
  protocol : d.protocol = kProtocolUdp
  port : ofBigEndian d.destinationPort = context.udpPort
  payload : decodeRequest d.payload = some request

end Datagram

/-! ### The edits, part by part -/

@[simp]
theorem Octets.length_coe {n : ℕ} (octets : Octets n) : (octets : List UInt8).length = n :=
  octets.property

@[simp]
theorem Octets.coe_ofNat (width n : ℕ) : (Octets.ofNat width n : List UInt8) = bigEndian width n :=
  rfl

theorem reverseEthernet_append (destination source : Octets 6) (rest : List UInt8) :
    reverseEthernet (destination ++ (source ++ rest)) = source ++ (destination ++ rest) := by
  simp [reverseEthernet, exchange, slice_skip, slice_here, overwrite_skip, overwrite_here]

/-- **The ARP reply in place is the answer to the request.** -/
theorem arpReply_bytes (frame : ArpFrame) : arpReply frame.bytes = frame.answer.bytes := by
  simp [arpReply, ArpFrame.bytes, ArpFrame.answer, kEthernetHeader, slice_skip, slice_here,
    reverseEthernet_append, overwrite_skip, overwrite_here]

namespace Datagram

variable (d : Datagram)

@[simp]
theorem length_ipHeader : d.ipHeader.length = 20 + d.options.length := by
  simp [ipHeader]
  omega

/-- The Ethernet header, the IP header and the segment behind it. -/
theorem bytes_eq : d.bytes =
    (d.destinationMac ++ (d.sourceMac ++ d.etherType) : List UInt8) ++
      (d.ipHeader ++ d.segment) := by
  simp [bytes]

theorem length_ethernet :
    (d.destinationMac ++ (d.sourceMac ++ d.etherType) : List UInt8).length = kEthernetHeader := by
  simp [kEthernetHeader]

theorem reverseEthernet_bytes : reverseEthernet d.bytes =
    { d with
      destinationMac := d.sourceMac
      sourceMac := d.destinationMac : Datagram }.bytes :=
  reverseEthernet_append _ _ _

theorem exchange_addresses : exchange (kEthernetHeader + 12) (kEthernetHeader + 16) 4 d.bytes =
    { d with
      sourceAddress := d.destinationAddress
      destinationAddress := d.sourceAddress : Datagram }.bytes := by
  rw [bytes_eq, bytes_eq, exchange_base d.length_ethernet, exchange_front (by simp; omega)
    (by simp)]
  simp [ipHeader, exchange, slice_cons, slice_skip, slice_here, overwrite_cons, overwrite_skip,
    overwrite_here, segment]

theorem overwrite_headerChecksum (field : Octets 2) :
    overwrite (kEthernetHeader + 10) field d.bytes =
      { d with headerChecksum := field : Datagram }.bytes := by
  rw [bytes_eq, bytes_eq, overwrite_base d.length_ethernet, overwrite_front (by simp; omega)]
  simp [ipHeader, overwrite_cons, overwrite_skip, overwrite_here, segment]

section Segment

variable {ipLength : ℕ} (h : 20 + d.options.length = ipLength)

include h

/-- What lies before the segment. -/
theorem length_headers :
    (d.destinationMac ++ (d.sourceMac ++ d.etherType) ++ d.ipHeader : List UInt8).length =
      kEthernetHeader + ipLength := by
  rw [List.length_append, length_ethernet, length_ipHeader, h]

theorem slice_ipHeader : slice kEthernetHeader ipLength d.bytes = d.ipHeader := by
  rw [bytes_eq, ← Nat.add_zero kEthernetHeader, slice_base d.length_ethernet,
    slice_here (by rw [length_ipHeader, h])]

theorem slice_payload :
    slice (kEthernetHeader + ipLength + kUdpHeader) kFrameSize d.bytes = d.payload := by
  rw [bytes_eq, ← List.append_assoc, slice_base (d.length_headers h)]
  simp [segment, kUdpHeader, kFrameSize, slice_skip, slice_here]

theorem exchange_ports :
    exchange (kEthernetHeader + ipLength) (kEthernetHeader + ipLength + 2) 2 d.bytes =
      { d with
        sourcePort := d.destinationPort
        destinationPort := d.sourcePort : Datagram }.bytes := by
  rw [bytes_eq, bytes_eq, ← List.append_assoc, ← Nat.add_zero (kEthernetHeader + ipLength),
    Nat.add_assoc _ 0, exchange_base (d.length_headers h)]
  simp [segment, exchange, slice_skip, slice_here, overwrite_skip, overwrite_here, ipHeader]

theorem overwrite_payload (reply : Octets 40) :
    overwrite (kEthernetHeader + ipLength + kUdpHeader) reply d.bytes =
      { d with payload := reply : Datagram }.bytes := by
  rw [bytes_eq, bytes_eq, ← List.append_assoc, overwrite_base (d.length_headers h)]
  simp [segment, kUdpHeader, overwrite_skip, overwrite_here, ipHeader]

theorem overwrite_udpChecksum (field : Octets 2) :
    overwrite (kEthernetHeader + ipLength + 6) field d.bytes =
      { d with udpChecksum := field : Datagram }.bytes := by
  rw [bytes_eq, bytes_eq, ← List.append_assoc, overwrite_base (d.length_headers h)]
  simp [segment, overwrite_skip, overwrite_here, ipHeader]

/-- **The counter reply in place is the answer to the datagram.** -/
theorem udpReply_bytes (rteIpv4Cksum : List UInt8 → ℕ) (reply : Octets 40) :
    udpReply rteIpv4Cksum ipLength reply d.bytes = (d.answer rteIpv4Cksum reply).bytes := by
  rw [udpReply, reverseEthernet_bytes, exchange_addresses, exchange_ports _ ?_,
    overwrite_payload _ ?_, ← Octets.coe_ofNat, overwrite_headerChecksum, slice_ipHeader _ ?_,
    ← Octets.coe_ofNat, overwrite_headerChecksum, overwrite_udpChecksum _ ?_]
  · rfl
  all_goals exact h

end Segment

/-! ### What the checks accept -/

/-- Every buffer that is long enough is a datagram with an IP header of a given length. -/
theorem exists_bytes_eq {ipLength : ℕ} {buffer : List UInt8} (hheader : kIpv4Header ≤ ipLength)
    (hlength : kEthernetHeader + ipLength + kUdpHeader + kFrameSize ≤ buffer.length) :
    ∃ d : Datagram, d.bytes = buffer ∧ 20 + d.options.length = ipLength := by
  obtain ⟨options, rfl⟩ : ∃ options, ipLength = 20 + options := Nat.exists_eq_add_of_le hheader
  simp only [kEthernetHeader, kUdpHeader, kFrameSize] at hlength
  have hpart : ∀ {offset width : ℕ}, offset + width ≤ 82 + options →
      (slice offset width buffer).length = width := fun h => length_slice (by omega)
  have hbyte : ∀ {offset : ℕ}, offset < 82 + options →
      buffer.getD offset 0 :: buffer.drop (offset + 1) = buffer.drop offset := by
    intro offset h
    exact getD_cons_drop (by omega) rfl 0
  refine ⟨{
    destinationMac := ⟨slice 0 6 buffer, hpart (by omega)⟩
    sourceMac := ⟨slice 6 6 buffer, hpart (by omega)⟩
    etherType := ⟨slice 12 2 buffer, hpart (by omega)⟩
    versionIhl := buffer.getD 14 0
    service := ⟨slice 15 8 buffer, hpart (by omega)⟩
    protocol := buffer.getD 23 0
    headerChecksum := ⟨slice 24 2 buffer, hpart (by omega)⟩
    sourceAddress := ⟨slice 26 4 buffer, hpart (by omega)⟩
    destinationAddress := ⟨slice 30 4 buffer, hpart (by omega)⟩
    options := slice 34 options buffer
    sourcePort := ⟨slice (34 + options) 2 buffer, hpart (by omega)⟩
    destinationPort := ⟨slice (34 + options + 2) 2 buffer, hpart (by omega)⟩
    udpLength := ⟨slice (34 + options + 2 + 2) 2 buffer, hpart (by omega)⟩
    udpChecksum := ⟨slice (34 + options + 2 + 2 + 2) 2 buffer, hpart (by omega)⟩
    payload := ⟨slice (34 + options + 2 + 2 + 2 + 2) 40 buffer, hpart (by omega)⟩
    trailer := buffer.drop (34 + options + 2 + 2 + 2 + 2 + 40) }, ?_, ?_⟩
  · simp only [bytes, ipHeader, segment, List.append_assoc, List.cons_append]
    rw [slice_append_drop, slice_append_drop, slice_append_drop, slice_append_drop,
      slice_append_drop, slice_append_drop, slice_append_drop, slice_append_drop,
      slice_append_drop, hbyte (by omega), slice_append_drop, hbyte (by omega), slice_append_drop,
      slice_append_drop, slice_append_drop, List.drop_zero]
  · rw [hpart (by omega)]

section Reading

theorem readField_etherType : readField 12 2 d.bytes = ofBigEndian d.etherType := by
  rw [readField, ← slice]
  simp [bytes, slice_skip, slice_here]

theorem versionIhl_bytes : Dpdk.versionIhl d.bytes = d.versionIhl := by
  rw [Dpdk.versionIhl, bytes_eq, List.getD_append_right _ _ _ _ d.length_ethernet.le,
    length_ethernet, Nat.sub_self]
  rfl

theorem getD_protocol : d.bytes.getD (kEthernetHeader + 9) 0 = d.protocol := by
  rw [bytes_eq, List.getD_append_right _ _ _ _ (by rw [length_ethernet]; omega), length_ethernet,
    Nat.add_sub_cancel_left, List.getD_append _ _ _ _ (by simp; omega), ipHeader,
    List.getD_cons_succ, List.getD_append_right _ _ _ _ (by simp)]
  simp

theorem readField_destinationPort {ipLength : ℕ} (h : 20 + d.options.length = ipLength) :
    readField (kEthernetHeader + ipLength + 2) 2 d.bytes = ofBigEndian d.destinationPort := by
  rw [readField, ← slice, bytes_eq, ← List.append_assoc, slice_base (d.length_headers h)]
  simp [segment, slice_skip, slice_here]

end Reading

variable {d} {packet : Mbuf} {context : WorkerContext} {request : UdpCounterProtocol.Request}

/-- **The checks accept exactly the counter requests for the port of the worker.** -/
theorem Fills.udpRequest_eq (h : d.Fills packet) :
    udpRequest context packet = some request ↔ d.Asks context request := by
  have hlength : ipLength packet.buffer = 20 + d.options.length := by
    rw [ipLength, ← h.bytes, versionIhl_bytes, h.header]
  have hroom := h.pktLen
  rw [length_ipHeader] at hroom
  rw [udpRequest, hlength, ← h.bytes, readField_etherType, versionIhl_bytes, getD_protocol,
    readField_destinationPort d rfl, slice_payload d rfl, if_neg, kIpv4Header]
  swap
  · rw [kIpv4Header]
    have hsegs := h.nbSegs
    omega
  constructor
  · intro hsome
    split at hsome
    · cases hsome
    rename_i htype
    split at hsome
    · cases hsome
    rename_i hheader
    split at hsome
    · cases hsome
    rename_i hport
    obtain ⟨hversion, -, hprotocol, -⟩ := by simpa only [not_or, not_not] using hheader
    exact ⟨not_not.mp htype, hversion, hprotocol, not_not.mp hport, hsome⟩
  · intro hasks
    rw [if_neg (not_not.mpr hasks.etherType), if_neg, if_neg (not_not.mpr hasks.port),
      hasks.payload]
    simp only [not_or, not_not]
    exact ⟨hasks.version, by omega, hasks.protocol, by omega⟩

/-- What the checks accept is a datagram. -/
theorem exists_fills (h : udpRequest context packet = some request) :
    ∃ d : Datagram, d.Fills packet := by
  rw [udpRequest] at h
  split at h
  · cases h
  rename_i hframe
  split at h
  · cases h
  split at h
  · cases h
  rename_i hheader
  simp only [not_or, not_not, not_lt] at hframe hheader
  have hbuffer := packet.contiguous hframe.1
  obtain ⟨d, hd, hoptions⟩ := exists_bytes_eq hheader.2.1 (hheader.2.2.2.trans hbuffer)
  refine ⟨d, hd, ?_, hframe.1, ?_⟩
  · rw [hoptions, ipLength, ← hd, versionIhl_bytes]
  · rw [length_ipHeader, hoptions]
    exact hheader.2.2.2

end Datagram

namespace ArpFrame

variable (frame : ArpFrame)

theorem readField_etherType : readField 12 2 frame.bytes = ofBigEndian frame.etherType := by
  rw [readField, ← slice]
  simp [bytes, slice_skip, slice_here]

theorem readField_opcode :
    readField (kEthernetHeader + 6) 2 frame.bytes = ofBigEndian frame.opcode := by
  rw [readField, ← slice]
  simp [bytes, kEthernetHeader, slice_skip, slice_here]

/-- Every buffer that is long enough is an ARP frame. -/
theorem exists_bytes_eq {buffer : List UInt8} (hlength : 42 ≤ buffer.length) :
    ∃ frame : ArpFrame, frame.bytes = buffer := by
  have hpart : ∀ {offset width : ℕ}, offset + width ≤ 42 →
      (slice offset width buffer).length = width := fun h => length_slice (by omega)
  refine ⟨{
    destinationMac := ⟨slice 0 6 buffer, hpart (by omega)⟩
    sourceMac := ⟨slice 6 6 buffer, hpart (by omega)⟩
    etherType := ⟨slice 12 2 buffer, hpart (by omega)⟩
    kinds := ⟨slice 14 6 buffer, hpart (by omega)⟩
    opcode := ⟨slice 20 2 buffer, hpart (by omega)⟩
    senderMac := ⟨slice 22 6 buffer, hpart (by omega)⟩
    senderAddress := ⟨slice 28 4 buffer, hpart (by omega)⟩
    targetMac := ⟨slice 32 6 buffer, hpart (by omega)⟩
    targetAddress := ⟨slice 38 4 buffer, hpart (by omega)⟩
    trailer := buffer.drop 42 }, ?_⟩
  simp only [bytes]
  rw [slice_append_drop, slice_append_drop, slice_append_drop, slice_append_drop,
    slice_append_drop, slice_append_drop, slice_append_drop, slice_append_drop, slice_append_drop,
    List.drop_zero]

end ArpFrame

/-! ### A worker answers -/

theorem length_encodeReply (reply : UdpCounterProtocol.Reply) :
    (encodeReply reply).length = 40 := by
  simp [encodeReply, length_encodeOwner]

/-- The payload of the reply to a request. -/
def replyOctets (context : WorkerContext) (request : UdpCounterProtocol.Request) (result : Result) :
    Octets 40 :=
  ⟨encodeReply (replyFor context request result), length_encodeReply _⟩

/-- What becomes of a frame, said on its parts: an ARP request is answered, a counter request is
put to the engine once and answered with its result, and every other frame is ignored. -/
inductive Answers (rteIpv4Cksum : List UInt8 → ℕ) (context : WorkerContext) (engine : CounterEngine)
    (packet : Mbuf) : Option Mbuf → CounterEngine → Prop
  | arp (frame : ArpFrame) (asks : frame.Asks packet)
      (h : frame.answer.bytes.length = packet.buffer.length) :
      Answers rteIpv4Cksum context engine packet (some (packet.edit frame.answer.bytes h)) engine
  | counter (d : Datagram) (request : UdpCounterProtocol.Request) (fills : d.Fills packet)
      (asks : d.Asks context request) (result : Result) (engine' : CounterEngine)
      (applied : engine.apply ⟨request.counter, request.delta, request.requestId⟩ =
        (result, engine'))
      (h : (d.answer rteIpv4Cksum (replyOctets context request result)).bytes.length =
        packet.buffer.length) :
      Answers rteIpv4Cksum context engine packet
        (some (packet.edit (d.answer rteIpv4Cksum (replyOctets context request result)).bytes h))
        engine'
  | ignored (noArp : ∀ frame : ArpFrame, ¬ frame.Asks packet)
      (noCounter : ∀ (d : Datagram) (request : UdpCounterProtocol.Request), d.Fills packet →
        ¬ d.Asks context request) :
      Answers rteIpv4Cksum context engine packet none engine

section Answers

variable {rteIpv4Cksum : List UInt8 → ℕ} {context : WorkerContext} {engine engine' : CounterEngine}
  {packet : Mbuf} {reply : Option Mbuf}

theorem Mbuf.edit_congr {first second : List UInt8} (heq : first = second)
    (hfirst : first.length = packet.buffer.length)
    (hsecond : second.length = packet.buffer.length) :
    packet.edit first hfirst = packet.edit second hsecond := by
  subst heq
  rfl

theorem ArpFrame.Asks.length_answer {frame : ArpFrame} (h : frame.Asks packet) :
    frame.answer.bytes.length = packet.buffer.length := by
  rw [← arpReply_bytes, length_arpReply, h.bytes]

theorem ArpFrame.Asks.replyArp_eq {frame : ArpFrame} (h : frame.Asks packet) :
    replyArp packet = some (packet.edit frame.answer.bytes h.length_answer) := by
  have htype : readField 12 2 packet.buffer = kEtherTypeArp := by
    rw [← h.bytes, frame.readField_etherType, h.etherType]
  have hopcode : readField (kEthernetHeader + 6) 2 packet.buffer = kArpRequest := by
    rw [← h.bytes, frame.readField_opcode, h.opcode]
  rw [replyArp, if_neg (Nat.not_lt.mpr h.pktLen), if_neg (not_not.mpr htype),
    if_neg (not_not.mpr hopcode)]
  exact congrArg some (Mbuf.edit_congr (by rw [← arpReply_bytes, h.bytes]) _ _)

theorem replyArp_eq_none (h : ∀ frame : ArpFrame, ¬ frame.Asks packet) :
    replyArp packet = none := by
  have hroom : 42 ≤ packet.buffer.length := le_trans (by decide) packet.room
  obtain ⟨frame, hframe⟩ := ArpFrame.exists_bytes_eq hroom
  rw [replyArp]
  split
  · rfl
  rename_i hlength
  split
  · rfl
  rename_i htype
  split
  · rfl
  rename_i hopcode
  rw [← hframe, frame.readField_etherType] at htype
  rw [← hframe, frame.readField_opcode] at hopcode
  exact absurd ⟨hframe, Nat.not_lt.mp hlength, not_not.mp htype, not_not.mp hopcode⟩ (h frame)

theorem Datagram.Fills.ipLength_eq {d : Datagram} (h : d.Fills packet) :
    20 + d.options.length = ipLength packet.buffer := by
  rw [ipLength, ← h.bytes, Datagram.versionIhl_bytes, h.header]

/-- A datagram is no ARP frame. -/
theorem Datagram.Asks.not_arp {d : Datagram} {request : UdpCounterProtocol.Request}
    (hfills : d.Fills packet) (h : d.Asks context request) (frame : ArpFrame) :
    ¬ frame.Asks packet := by
  intro harp
  have htypes : kEtherTypeArp = kEtherTypeIpv4 := by
    rw [← harp.etherType, ← h.etherType, ← frame.readField_etherType, ← d.readField_etherType,
      harp.bytes, hfills.bytes]
  exact absurd htypes (by decide)

theorem Datagram.Fills.length_answer {d : Datagram} (h : d.Fills packet) (octets : Octets 40) :
    (d.answer rteIpv4Cksum octets).bytes.length = packet.buffer.length := by
  rw [← d.udpReply_bytes rfl, length_udpReply, h.bytes]

theorem Datagram.Fills.processUdpRequest_eq {d : Datagram} {request : UdpCounterProtocol.Request}
    (hfills : d.Fills packet) (hasks : d.Asks context request) :
    processUdpRequest rteIpv4Cksum context engine packet =
      some (packet.edit
        (d.answer rteIpv4Cksum (replyOctets context request
          (engine.apply ⟨request.counter, request.delta, request.requestId⟩).1)).bytes
        (hfills.length_answer _),
        (engine.apply ⟨request.counter, request.delta, request.requestId⟩).2) := by
  simp only [processUdpRequest, hfills.udpRequest_eq.mpr hasks]
  congr 2
  exact Mbuf.edit_congr (by rw [← d.udpReply_bytes hfills.ipLength_eq, hfills.bytes]; rfl) _ _

/-- **The edits in place do what is said on the parts.** For every frame and every engine, the body
of the worker's loop yields exactly what `Answers` says. -/
theorem answerFrame_eq_iff :
    answerFrame rteIpv4Cksum context engine packet = (reply, engine') ↔
      Answers rteIpv4Cksum context engine packet reply engine' := by
  constructor
  · intro h
    by_cases harp : ∃ frame : ArpFrame, frame.Asks packet
    · obtain ⟨frame, harp⟩ := harp
      simp only [answerFrame, harp.replyArp_eq] at h
      obtain ⟨rfl, rfl⟩ := Prod.mk.inj h
      exact .arp frame harp _
    push Not at harp
    by_cases hcounter : ∃ (d : Datagram) (request : UdpCounterProtocol.Request),
        d.Fills packet ∧ d.Asks context request
    · obtain ⟨d, request, hfills, hasks⟩ := hcounter
      simp only [answerFrame, replyArp_eq_none harp, hfills.processUdpRequest_eq hasks] at h
      obtain ⟨rfl, rfl⟩ := Prod.mk.inj h
      exact .counter d request hfills hasks _ _ rfl _
    · have hnone : udpRequest context packet = none := by
        rcases hrequest : udpRequest context packet with _ | request
        · rfl
        · obtain ⟨d, hfills⟩ := Datagram.exists_fills hrequest
          exact absurd ⟨d, request, hfills, hfills.udpRequest_eq.mp hrequest⟩ hcounter
      simp only [answerFrame, replyArp_eq_none harp, processUdpRequest, hnone] at h
      obtain ⟨rfl, rfl⟩ := Prod.mk.inj h
      exact .ignored harp fun d request hfills hasks => hcounter ⟨d, request, hfills, hasks⟩
  · intro h
    cases h with
    | arp frame asks => simp only [answerFrame, asks.replyArp_eq]
    | counter d request fills asks result engine' applied =>
      rw [answerFrame, replyArp_eq_none (asks.not_arp fills)]
      simp only [fills.processUdpRequest_eq asks, applied]
    | ignored noArp noCounter =>
      have hnone : udpRequest context packet = none := by
        rcases hrequest : udpRequest context packet with _ | request
        · rfl
        · obtain ⟨d, hfills⟩ := Datagram.exists_fills hrequest
          exact absurd (hfills.udpRequest_eq.mp hrequest) (noCounter d request hfills)
      simp only [answerFrame, replyArp_eq_none noArp, processUdpRequest, hnone]

/-! ### What the client reads -/

/-- Every result of a sound engine fits the field of a reply. -/
theorem observed_apply_lt (hs : engine.Sound) (request : Request) :
    (engine.apply request).1.observed < 2 ^ 64 := by
  have hlimit : engine.strict.limit < 2 ^ 64 := hs.strict_limit ▸ engine.config.limit_lt
  have hvalue : engine.strict.value < 2 ^ 64 := hs.value_le.trans_lt engine.config.limit_lt
  have hstrict : ∀ mode, (engine.applyStrict mode request).1.observed < 2 ^ 64 := by
    intro mode
    rw [CounterEngine.applyStrict]
    rcases engine.strict.apply_cases request.delta hlimit with ⟨-, heq⟩ | ⟨hfit, heq⟩
    · simpa [heq] using hvalue
    · simpa [heq] using hfit.trans_lt hlimit
  rw [CounterEngine.apply]
  split
  · exact hlimit
  split
  · exact Nat.two_pow_pos 64
  split
  · exact hstrict _
  · -- a shard never holds more than its reserve, which is a part of the limit
    have hshard := hs.bounded.shardAt_mem (CounterEngine.shardFor engine.config request.routeHash)
    have hreserve := List.single_le_sum (fun _ _ => Nat.zero_le _) _
      (List.mem_map_of_mem (f := Shard.reserve) hshard)
    rw [hs.bounded.sum_reserve, hs.reserved_limit] at hreserve
    have hused := (hs.bounded.le_reserve _ hshard).trans_lt
      (hreserve.trans_lt engine.config.localPeak_lt)
    rw [CounterEngine.applyReserved, ReservedCounter.apply]
    dsimp only
    split <;> split
    all_goals first | exact hused | exact Nat.mod_lt _ (Nat.two_pow_pos 64)
  · exact hstrict _
  · exact hvalue

/-- A decoded request has fields of the width it was read from. -/
theorem inRange_of_decodeRequest {bytes : List UInt8} {request : UdpCounterProtocol.Request}
    (h : decodeRequest bytes = some request) : request.InRange := by
  rw [decodeRequest] at h
  split at h
  · obtain rfl := Option.some.inj h
    exact ⟨readField_lt _ _ _, readField_lt _ _ _, readField_lt _ _ _⟩
  · cases h

/-- **The client reads the engine's answer** in the payload of the reply. -/
theorem decodeReply_replyOctets (hs : engine.Sound) {d : Datagram}
    {request : UdpCounterProtocol.Request} (hasks : d.Asks context request)
    (asked : Request) :
    decodeReply (replyOctets context request (engine.apply asked).1) =
      some (replyFor context request (engine.apply asked).1).onWire := by
  have hrequest := inRange_of_decodeRequest hasks.payload
  exact decodeReply_encodeReply ⟨hrequest.requestId, observed_apply_lt hs _, hrequest.counter,
    context.redirect.ipv4_lt, context.redirect.port_lt⟩

/-! ### No answer is answered -/

/-- A reply in the payload is no request. -/
theorem decodeRequest_encodeReply (reply : UdpCounterProtocol.Reply) :
    decodeRequest (encodeReply reply) = none := by
  by_contra h
  have htype := (validPrefix_eq_true_iff.mp (validPrefix_of_decodeRequest h)).2.2.2
  exact absurd htype (by simp [encodeReply, bigEndian, kRequest, kReply])

/-- The answer to a datagram fills the mbuf of the datagram. -/
theorem Datagram.Fills.answer {d : Datagram} (hfills : d.Fills packet) (octets : Octets 40)
    (h : (d.answer rteIpv4Cksum octets).bytes.length = packet.buffer.length) :
    (d.answer rteIpv4Cksum octets).Fills
      (packet.edit (d.answer rteIpv4Cksum octets).bytes h) where
  bytes := rfl
  header := hfills.header
  nbSegs := hfills.nbSegs
  pktLen := by
    have hlength := hfills.pktLen
    rw [Datagram.length_ipHeader] at hlength ⊢
    exact hlength

/-- **No answer is answered.** What one worker sends is ignored by every worker, of this process or
another, so two of them never answer each other. -/
theorem Answers.ignored_again {sent : Mbuf}
    (h : Answers rteIpv4Cksum context engine packet (some sent) engine') (context' : WorkerContext)
    (other : CounterEngine) : Answers rteIpv4Cksum context' other sent none other := by
  cases h with
  | arp frame asks h =>
    refine .ignored (fun again hagain => ?_) fun d request hfills hasks => ?_
    · -- the opcode is the one of a reply
      have hopcode : ofBigEndian (bigEndian 2 kArpReply) = kArpRequest := by
        change ofBigEndian (frame.answer.opcode : List UInt8) = kArpRequest
        rw [← hagain.opcode, ← frame.answer.readField_opcode, ← again.readField_opcode,
          hagain.bytes]
        rfl
      exact absurd hopcode (by decide)
    · -- the frame still is an ARP frame
      have htypes : kEtherTypeArp = kEtherTypeIpv4 := by
        rw [← hasks.etherType, ← d.readField_etherType, hfills.bytes, ← asks.etherType]
        exact frame.answer.readField_etherType.symm
      exact absurd htypes (by decide)
  | counter d request fills asks result engine' applied h =>
    refine .ignored (fun again hagain => ?_) fun d' request' hfills hasks => ?_
    · -- the frame still is an IPv4 frame
      have htypes : kEtherTypeArp = kEtherTypeIpv4 := by
        rw [← hagain.etherType, ← again.readField_etherType, hagain.bytes, ← asks.etherType]
        exact (d.answer rteIpv4Cksum _).readField_etherType
      exact absurd htypes (by decide)
    · -- its payload is a reply
      have hanswer := (fills.answer _ h).udpRequest_eq.mp (hfills.udpRequest_eq.mpr hasks)
      exact absurd ((decodeRequest_encodeReply _).symm.trans hanswer.payload) nofun

/-- **A worker answers in place.** For every frame and every sound engine, the edits of the received
buffer yield exactly what is said on its parts; the payload of the reply to a counter request
decodes to what the engine answered, and its IP header carries the checksum of the header that
is sent; and no worker answers a frame that a worker sent. -/
theorem answerFrame_correct (rteIpv4Cksum : List UInt8 → ℕ) (context : WorkerContext)
    (engine : CounterEngine) (hs : engine.Sound) (packet : Mbuf) :
    (∀ reply engine', answerFrame rteIpv4Cksum context engine packet = (reply, engine') ↔
      Answers rteIpv4Cksum context engine packet reply engine') ∧
    (∀ (d : Datagram) (request : UdpCounterProtocol.Request), d.Fills packet →
      d.Asks context request → ∃ (sent : Mbuf) (d' : Datagram),
        answerFrame rteIpv4Cksum context engine packet = (some sent,
          (engine.apply ⟨request.counter, request.delta, request.requestId⟩).2) ∧
        sent.handle = packet.handle ∧ d'.Fills sent ∧
        d'.destinationMac = d.sourceMac ∧ d'.destinationAddress = d.sourceAddress ∧
        d'.destinationPort = d.sourcePort ∧
        (d'.headerChecksum : List UInt8) =
          bigEndian 2 (rteIpv4Cksum { d' with headerChecksum := .ofNat 2 0 : Datagram }.ipHeader) ∧
        decodeReply d'.payload = some (replyFor context request
          (engine.apply ⟨request.counter, request.delta, request.requestId⟩).1).onWire) ∧
    ∀ sent engine', answerFrame rteIpv4Cksum context engine packet = (some sent, engine') →
      ∀ context' other, answerFrame rteIpv4Cksum context' other sent = (none, other) := by
  refine ⟨fun _ _ => answerFrame_eq_iff, fun d request hfills hasks => ?_, fun sent engine' h => ?_⟩
  · have hanswers : Answers rteIpv4Cksum context engine packet _ _ :=
      .counter d request hfills hasks _ _ rfl (hfills.length_answer _)
    exact ⟨_, _, answerFrame_eq_iff.mpr hanswers, rfl, hfills.answer _ _, rfl, rfl, rfl, rfl,
      decodeReply_replyOctets hs hasks _⟩
  · intro context' other
    exact answerFrame_eq_iff.mpr ((answerFrame_eq_iff.mp h).ignored_again context' other)

end Answers

/-- The sum of the 16-bit words of a header. -/
def wordSum : List UInt8 → ℕ
  | high :: low :: rest => high.toNat * 256 + low.toNat + wordSum rest
  | [high] => high.toNat * 256
  | [] => 0

/-- The checksum of the Internet protocols, as `rte_ipv4_cksum` computes it. -/
def internetChecksum (header : List UInt8) : ℕ :=
  let once := wordSum header % 65536 + wordSum header / 65536
  65535 - (once % 65536 + once / 65536)

/-- A request for 5 units of counter 17 from 10.0.0.2 to 10.0.0.1, in an mbuf of the pool. -/
def requestDatagram : Datagram where
  destinationMac := ⟨[2, 0, 0, 0, 0, 1], rfl⟩
  sourceMac := ⟨[2, 0, 0, 0, 0, 2], rfl⟩
  etherType := ⟨[8, 0], rfl⟩
  versionIhl := 0x45
  service := ⟨[0, 0, 68, 0, 0, 0, 0, 64], rfl⟩
  protocol := 17
  headerChecksum := ⟨[102, 167], rfl⟩
  sourceAddress := ⟨[10, 0, 0, 2], rfl⟩
  destinationAddress := ⟨[10, 0, 0, 1], rfl⟩
  options := []
  sourcePort := ⟨[156, 64], rfl⟩
  destinationPort := ⟨[35, 131], rfl⟩
  udpLength := ⟨[0, 48], rfl⟩
  udpChecksum := ⟨[0, 0], rfl⟩
  payload := ⟨encodeRequest ⟨7, 5, 17⟩, rfl⟩
  trailer := List.replicate 1966 0

theorem length_requestDatagram : requestDatagram.bytes.length = 2048 := by
  have htrailer : requestDatagram.trailer.length = 1966 := List.length_replicate
  simp only [Datagram.bytes, Datagram.segment, List.length_append, Octets.length_coe,
    Datagram.length_ipHeader, htrailer]
  rfl

/-- The mbuf of `requestDatagram`. -/
def requestMbuf : Mbuf where
  handle := 3
  nbSegs := 1
  pktLen := 82
  buffer := requestDatagram.bytes
  room := length_requestDatagram.ge
  contiguous := fun _ => le_trans (by decide) length_requestDatagram.ge

theorem answerFrame_correct_request : ∃ (sent : Mbuf) (d' : Datagram),
    answerFrame internetChecksum ⟨9091, {}⟩ (.new CounterEngine.testConfig) requestMbuf =
      (some sent, ((CounterEngine.new CounterEngine.testConfig).apply ⟨17, 5, 7⟩).2) ∧
    d'.Fills sent ∧ decodeReply d'.payload = some ⟨7, ⟨.accepted, 5, 0⟩, 17, 0, 0⟩ := by
  have hfills : requestDatagram.Fills requestMbuf := ⟨rfl, rfl, rfl, by decide⟩
  have hasks : requestDatagram.Asks ⟨9091, {}⟩ ⟨7, 5, 17⟩ :=
    ⟨by decide, by decide, rfl, by decide, by decide⟩
  obtain ⟨sent, d', hanswer, -, hsent, -, -, -, -, hreply⟩ :=
    (answerFrame_correct internetChecksum ⟨9091, {}⟩ (.new CounterEngine.testConfig)
      (CounterEngine.sound_new _) requestMbuf).2.1 requestDatagram ⟨7, 5, 17⟩ hfills hasks
  exact ⟨sent, d', hanswer, hsent, hreply.trans (by decide)⟩

end Dpdk

end HotCounter
