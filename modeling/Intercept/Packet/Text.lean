import Intercept.Packet

set_option autoImplicit false

/-! # Packets in words

A packet is shown in two ways: as a summary of its headers for people, and by its record for
listings. The summary looks for the headers; where one cannot be read, its place is taken by the
reason. -/

namespace Intercept

/-- A fault in the place of what could not be read. -/
def Fault.text : Fault → String
  | .refused e => e.message
  | .outOfRange => "index out of range"

namespace Layout

/-- A truth value for listings. -/
def listingBool (b : Bool) : String := if b then "true" else "false"

/-- The layout by its record, for listings. -/
def listing (l : Layout) : String :=
  "Layout \x7b ip_version: " ++ toString l.version.number ++
    ", ip_header_len: " ++ toString l.ipHeaderLen ++
    ", next_protocol: " ++ toString l.protocol ++ ", segment_len: " ++ toString l.segmentLen ++
    ", ip_modified: " ++ listingBool l.ipModified ++
    ", next_modified: " ++ listingBool l.segmentModified ++ " \x7d"

end Layout

namespace Packet

/-- A line of the summary. -/
def summaryLine (label value : String) : String := "\t" ++ label ++ ": " ++ value ++ "\n"

/-- The header behind the IP header in the summary: a TCP segment in words, two ports, or the
record of a header without ports. -/
def nextSummary (h : NextHeader) : String :=
  match h with
  | .tcp segment => Tcp.text segment
  | h =>
    match h.port? .src, h.port? .dst with
    | some src, some dst => toString src.toNat ++ " -> " ++ toString dst.toNat
    | _, _ => h.listing

/-- The lines of the summary about headers. -/
def headerSummary (p : Packet) : String :=
  match p.ipHeader with
  | .error e => summaryLine "IpHeader" e.text
  | .ok ip =>
    summaryLine "IpHeader"
      ("IPv" ++ toString ip.version.number ++ " " ++ (ip.addr .src).text ++ " -> " ++
        (ip.addr .dst).text ++ " (" ++ toString ip.headerLen ++ " bytes)") ++
    (match p.locate with
      | .error _ => ""
      | .ok l => summaryLine "NextHeaderType"
          ("(" ++ toString l.protocol ++ ")->" ++ protocolName l.protocol)) ++
    (match p.nextHeader with
      | .error e => summaryLine "NextHeader" e.text
      | .ok h => summaryLine "NextHeader" (nextSummary h))

/-- The packet in words: its headers, the address recorded with it, and its length. -/
def summary (p : Packet) : String :=
  "Packet \x7b\n" ++ p.headerSummary ++ summaryLine "Address" p.address.text ++
    summaryLine "Length" (toString p.len) ++ "\x7d"

/-- The packet by its record, for listings. The layout shows only once it was found. -/
def listing (p : Packet) : String :=
  "Packet \x7b buffer: " ++ p.buffer.listing ++ ", addr: " ++ p.address.listing ++ ", layout: " ++
    "OnceCell(" ++ (match p.layout with
      | none => "Uninit"
      | some l => l.listing) ++ ") \x7d"

end Packet

end Intercept
