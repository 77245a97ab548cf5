import ClientGen.Host.Name
import ClientGen.Number.Hexadecimal
import ClientGen.Number.Reading

/-!
# Addresses of servers

The address of a document on a server: a scheme, then a host and possibly a user and a service
number, then the rest.

* `Address`: a host and a service number as they are written.
* `Address.ofUrl`: those of an address.
* `Address.isValid`: are they written as hosts and numbers are?
* `Address.isDecodable`, `Address.isWritable`: can the host be shown, and can it be sent?
* `isValidUrl`: can the address be asked for at all?
-/

namespace ClientGen

/-- The host and the service number of an address as they are written. -/
structure Address where
  /-- The host, with the brackets around one that consists of numbers of base 16. -/
  host : List Char
  /-- The number of the service on the host, which may be empty. -/
  service : List Char
deriving DecidableEq, Repr

namespace Address

/-- The part after the last at sign. -/
def afterUser (cs : List Char) : List Char := (cs.reverse.takeWhile (· ≠ '@')).reverse

/-- The text up to the last closing bracket, that included, and what follows. -/
def splitBracket (cs : List Char) : List Char × List Char :=
  let after := (cs.reverse.takeWhile (· ≠ ']')).reverse
  (cs.take (cs.length - after.length), after)

/-- The host and the service number in a text. -/
def ofAuthority (cs : List Char) : Address :=
  let (host, rest) :=
    if cs.head? = some '[' && cs.contains ']' then splitBracket cs
    else (cs.takeWhile (· ≠ ':'), cs.dropWhile (· ≠ ':'))
  ⟨host, if rest.head? = some ':' then rest.tail else rest⟩

/-- The host and the service number of an address with a scheme. -/
def ofUrl (url : String) : Address :=
  let rest := (url.toList.dropWhile (· ≠ '/')).drop 2
  ofAuthority (afterUser (rest.takeWhile fun c => c ≠ '/' && c ≠ '?' && c ≠ '#'))

/-- One of the four numbers of a numeric host: at most 255, without leading zeros. -/
def isOctet (cs : List Char) : Bool :=
  !cs.isEmpty && cs.all Text.isAsciiDigit && cs.length ≤ 3 && (cs = ['0'] || cs.head? ≠ some '0')
    && (readNatural cs).any (· ≤ 255)

/-- A numeric host: four numbers with dots between them. -/
def isFourNumbers (cs : List Char) : Bool :=
  let parts := Text.splitOn '.' cs
  parts.length == 4 && parts.all isOctet

/-- A group of a host in brackets: one to four digits of base 16. -/
def isGroup (cs : List Char) : Bool :=
  !cs.isEmpty && cs.length ≤ 4 && cs.all fun c => (Hexadecimal.value? c).isSome

/-- The groups of a host in brackets: a numeric host at the end counts as two groups; none if there
is something else with a dot. -/
def groups? (cs : List Char) : Option (List (List Char)) :=
  let parts := Text.splitOn ':' cs
  match parts.reverse with
  | last :: before =>
    if last.contains '.' then
      if isFourNumbers last then some (before.reverse ++ [['0'], ['0']]) else none
    else some parts
  | [] => none

/-- Do some groups stand for eight? An empty one in the middle stands for all that are missing; at
either end an empty one may only stand beside it. -/
def standForEight (parts : List (List Char)) : Bool :=
  let gaps := (List.range parts.length).filter fun i =>
    0 < i && i + 1 < parts.length && (parts[i]?.getD []).isEmpty
  match gaps with
  | [] => parts.length == 8 && parts.all isGroup
  | [i] =>
    let high := parts.take i
    let low := parts.drop (i + 1)
    let high := if high = [[]] then [] else high
    let low := if low = [[]] then [] else low
    high.all isGroup && low.all isGroup && high.length + low.length ≤ 7
  | _ => false

/-- The text between the brackets of a host: groups with colons between them, and possibly a zone
after a percent sign. -/
def isBracketed (cs : List Char) : Bool :=
  let zone := (cs.dropWhile (· ≠ '%')).drop 1
  let address := cs.takeWhile (· ≠ '%')
  (if cs.contains '%' then !zone.isEmpty && !zone.contains '%' else true)
    && 3 ≤ (Text.splitOn ':' address).length
    && (groups? address).any fun parts => parts.length ≤ 9 && standForEight parts

/-- Does a host look like four numbers with dots between them? -/
def looksNumeric (cs : List Char) : Bool :=
  let parts := Text.splitOn '.' cs
  parts.length == 4 && parts.all fun p => !p.isEmpty && p.all Text.isAsciiDigit

/-- Does a text consist of characters of ASCII? -/
def isAscii (cs : List Char) : Bool := cs.all fun c => c.toNat < 128

/-- Is the host in brackets? -/
def inBrackets (cs : List Char) : Bool := cs.head? = some '[' && cs.getLast? = some ']'

/-- Is the host written as hosts are? An empty host is, and so is any text of ASCII that does not
look like something else. -/
def isHost (cs : List Char) : Bool :=
  if inBrackets cs then isBracketed cs.tail.dropLast
  else if looksNumeric cs then isFourNumbers cs
  else isAscii cs || Host.Name.isInternational cs

/-- Are host and service number written as they should be? The number is whole or missing. -/
def isValid (a : Address) : Bool :=
  isHost a.host && (a.service.isEmpty || (readInteger a.service).isSome)

/-- Does the host, if it is a name that starts with a coded label, stand for a name? -/
def isDecodable (a : Address) : Bool := Host.Name.isDecodable a.host

/-- Can the host be written in ASCII? A name always can, in code; the zone of a host in brackets
cannot be coded. -/
def isWritable (a : Address) : Bool := !inBrackets a.host || isAscii a.host

end Address

/-- The most characters that an address may have. -/
def longestUrl : Nat := 65536

/-- Can the address of a server be asked for? It must not have control characters. -/
def isValidUrl (url : String) : Bool :=
  url.length ≤ longestUrl && url.toList.all (fun c => 0x20 ≤ c.toNat && c.toNat ≠ 0x7f)
    && (Address.ofUrl url).isValid

end ClientGen
