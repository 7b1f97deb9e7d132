import ComputerNetwork.Lib.Bytes
import ComputerNetwork.Lib.OnesComplement

/-!
# Frames of the router

The headers of `sr_protocol.h` as fields at fixed offsets of an Ethernet frame, and `cksum` of
`sr_utils.c`.  The 16-bit fields are read and written in network order; IP addresses stay in network
order throughout the router and appear here as the number a little-endian host sees, since the
routing code compares masks as such numbers.  `cksum` returns a value in network order
(`htons (~sum)`), so it is here the number whose big-endian bytes the caller stores.
-/

namespace ComputerNetwork.Router

open Lib

/-- `ETHER_ADDR_LEN` bytes. -/
@[ext] structure Mac where
  bytes : List UInt8
  size : bytes.length = 6
  deriving DecidableEq

/-- The address of six bytes. -/
def Mac.of (a b c d e f : UInt8) : Mac := ⟨[a, b, c, d, e, f], rfl⟩

/-- A hardware address copied out of a frame. -/
def Mac.copy (frame : List UInt8) (i : ℕ) : Mac where
  bytes := (List.range 6).map fun k => load8 frame (i + k)
  size := by simp

def ethertypeArp : UInt16 := 0x0806
def ethertypeIp : UInt16 := 0x0800
def ipProtocolIcmp : UInt8 := 1
def arpOpRequest : UInt16 := 1
def arpOpReply : UInt16 := 2

/-- `sizeof(sr_ethernet_hdr_t)`. -/
def sizeofEthernet : ℕ := 14

/-- `sizeof(sr_ethernet_hdr_t) + sizeof(sr_ip_hdr_t)`, where an ICMP message begins. -/
def icmpStart : ℕ := 34

/-- `sizeof(sr_icmp_hdr_t)`, which is also `sizeof(sr_icmp_t3_hdr_t)`. -/
def sizeofIcmp : ℕ := 36

/-- `ICMP_DATA_SIZE`. -/
def icmpDataSize : ℕ := 28

/-! ## Fields -/

def etherType (f : List UInt8) : UInt16 := loadBE16 f 12

def arOp (f : List UInt8) : UInt16 := loadBE16 f 20
def arSip (f : List UInt8) : UInt32 := loadLE32 f 28
def arTip (f : List UInt8) : UInt32 := loadLE32 f 38

/-- `ip_hl`, the low half of the first byte. -/
def ipHl (f : List UInt8) : UInt8 := load8 f 14 &&& 0x0f

def ipLen (f : List UInt8) : UInt16 := loadBE16 f 16
def ipTtl (f : List UInt8) : UInt8 := load8 f 22
def ipP (f : List UInt8) : UInt8 := load8 f 23
def ipSum (f : List UInt8) : UInt16 := loadBE16 f 24
def ipSrc (f : List UInt8) : UInt32 := loadLE32 f 26
def ipDst (f : List UInt8) : UInt32 := loadLE32 f 30

def icmpType (f : List UInt8) : UInt8 := load8 f 34
def icmpCode (f : List UInt8) : UInt8 := load8 f 35
def icmpSum (f : List UInt8) : UInt16 := loadBE16 f 36

/-- The twenty bytes of the IP header. -/
def ipHeader (f : List UInt8) : List UInt8 := (f.drop 14).take 20

/-! ## Checksums -/

/-- `cksum`. -/
def cksum (data : List UInt8) : UInt16 :=
  UInt16.ofNat (complement (foldCarry 2 (wordSum data % 2 ^ 32)))

/-- `ip_sum = 0; ip_sum = cksum(ip_header, sizeof(sr_ip_hdr_t))`. -/
def setIpSum (f : List UInt8) : List UInt8 :=
  let f := splice f 24 (bytesBE16 0)
  splice f 24 (bytesBE16 (cksum (ipHeader f)))

/-- `icmp_sum = 0; icmp_sum = cksum(icmp_header, len - icmp_start)`. -/
def setIcmpSum (f : List UInt8) : List UInt8 :=
  let f := splice f 36 (bytesBE16 0)
  splice f 36 (bytesBE16 (cksum (f.drop icmpStart)))

/-- The checks `sr_handlepacket` makes before it passes an IP frame on. -/
def ipChecks (f : List UInt8) : Bool :=
  34 ≤ f.length && cksum (ipHeader f) == ipSum f &&
    (ipP f != ipProtocolIcmp ||
      (70 ≤ f.length && cksum ((f.drop icmpStart).take sizeofIcmp) == icmpSum f))

end ComputerNetwork.Router
