import Mathlib
/-!
# The port of a connect request

`Connect::new` reads the port after the first colon of the string. `lookup` gives
the whole string to the name service, which splits it its own way, and then sets
the port of every address to the one of the request. What a string is as an IP
address and what the name service answers are parameters.

A bracketed IPv6 address has colons of its own. The text after the first one is
no number, so the port of such a request is 0, whatever the string says.
-/
open List

namespace Geario.Net

abbrev Str := List Char

def digits (s : Str) : Option Nat :=
  s.foldlM (fun n c => if c.isDigit then some (n * 10 + (c.toNat - 48)) else none) 0

/-- `parse::<u16>()`. -/
def parse_u16 (s : Str) : Option Nat :=
  let s := match s with
    | '+' :: s => s
    | s => s
  if s.isEmpty then none else (digits s).filter (· < 2 ^ 16)

/-- The host, and the port if there is one. -/
def parse (host : Str) : Str × Option Nat := (host.takeWhile (· ≠ ':'), parse_u16 ((host.dropWhile (· ≠ ':')).drop 1))

structure SocketAddr (ι : Type) where
  ip : ι
  port : Nat
  deriving DecidableEq

/-- A request for a string, which has neither a port nor an address of its own. -/
structure Connect (ι : Type) where
  req : Str
  port : Nat
  addr : Option (SocketAddr ι ⊕ List (SocketAddr ι))

inductive ConnectError
  | NoRecords | Resolver
  deriving DecidableEq

variable {ι : Type}

namespace Connect

def new (req : Str) : Connect ι := { req, port := (parse req).2.getD 0, addr := none }

def set_port (c : Connect ι) (port : Nat) : Connect ι := { c with port }

def set_addrs (c : Connect ι) (addrs : List (SocketAddr ι)) : Connect ι :=
  { c with addr := if addrs.length < 2 then addrs.head?.map .inl else some (.inr addrs) }

def addrs (c : Connect ι) : List (SocketAddr ι) :=
  match c.addr with
  | none => []
  | some (.inl addr) => [addr]
  | some (.inr addrs) => addrs

variable (parse_ip : Str → Option ι) (to_socket_addrs : Str → Option (List (SocketAddr ι)))

def lookup (c : Connect ι) : Except ConnectError (Connect ι) :=
  if c.addr.isSome then .ok c
  else
    match parse_ip c.req with
    | some ip => .ok { c with addr := some (.inl ⟨ip, c.port⟩) }
    | none =>
      let host := if ':' ∈ c.req then c.req else c.req ++ ':' :: Nat.toDigits 10 c.port
      match to_socket_addrs host with
      | some ips =>
        let c := c.set_addrs (ips.reverse.map fun ip => { ip with port := c.port })
        if c.addr.isNone then .error .NoRecords else .ok c
      | none => .error .Resolver

variable {parse_ip to_socket_addrs} {c c' : Connect ι}

lemma addrs_set_addrs (c : Connect ι) (l : List (SocketAddr ι)) : (c.set_addrs l).addrs = l := by
  unfold set_addrs addrs
  rcases l with _ | ⟨a, _ | ⟨b, l⟩⟩
  · rfl
  · rfl
  · have hlen : ¬ l.length + 1 + 1 < 2 := by omega
    simp [hlen]

lemma addrs_lookup (hc : c.addr = none) (h : c.lookup parse_ip to_socket_addrs = .ok c') :
    c'.addrs ≠ [] ∧ ∀ a ∈ c'.addrs, a.port = c.port := by
  unfold lookup at h
  rw [hc] at h
  dsimp only [Option.isSome_none] at h
  rw [if_neg nofun] at h
  split at h
  · cases h
    simp [addrs]
  · split at h
    next ips _ =>
      split at h <;> cases h
      next hne =>
      refine ⟨?_, ?_⟩
      · intro hnil
        rw [addrs_set_addrs] at hnil
        rw [hnil] at hne
        exact hne rfl
      · rw [addrs_set_addrs]
        grind
    · cases h

lemma digits_none {s : Str} {x : Char} (hx : x ∈ s) (hd : x.isDigit = false) : digits s = none := by
  unfold digits
  generalize 0 = n
  induction s generalizing n with
  | nil => cases hx
  | cons c s ih =>
    rw [foldlM_cons]
    rcases mem_cons.1 hx with rfl | hx
    · simp [hd]
    · split
      · exact ih hx _
      · rfl

lemma parse_u16_none {s : Str} {x : Char} (hx : x ∈ s) (hd : x.isDigit = false) (hp : x ≠ '+') : parse_u16 s = none := by
  unfold parse_u16
  split <;> grind [digits_none]

lemma parse_plain {host : Str} (h : ':' ∉ host) (d : Str) : (parse (host ++ ':' :: d)).2 = parse_u16 d := by
  have hd : (host ++ ':' :: d).dropWhile (· ≠ ':') = ':' :: d := by
    rw [dropWhile_append_of_pos (by grind)]
    simp
  rw [parse, hd]
  rfl

/-- In a bracketed host the first colon comes before the bracket. -/
lemma parse_bracketed {s : Str} (h : ':' ∈ s) (d : Str) : (parse ('[' :: s ++ ']' :: ':' :: d)).2 = none := by
  obtain ⟨s₁, s₂, rfl, hs₁⟩ := eq_append_cons_of_mem h
  have hplain := parse_plain (show ':' ∉ '[' :: s₁ by simp [hs₁]) (s₂ ++ ']' :: ':' :: d)
  have hnone : parse_u16 (s₂ ++ ']' :: ':' :: d) = none :=
    parse_u16_none (mem_append_right _ (.head _)) (by decide) (by decide)
  simpa using hplain.trans hnone

/-- A name or an IPv4 address, or an IPv6 address in brackets. -/
inductive Host : Str → Prop
  | plain {host : Str} (h : ':' ∉ host) : Host host
  | bracketed {s : Str} (h : ':' ∈ s) : Host ('[' :: s ++ [']'])

/-- The addresses for `host:d` have the port that `d` says just when the host is not in brackets, or the port is 0. With
`set_port` they have the port that was set. -/
theorem connect_port_iff (parse_ip : Str → Option ι) (to_socket_addrs : Str → Option (List (SocketAddr ι))) :
    (∀ (host d : Str) (p : Nat) (c : Connect ι), Host host → parse_u16 d = some p →
      (new (host ++ ':' :: d)).lookup parse_ip to_socket_addrs = .ok c →
      ((∀ a ∈ c.addrs, a.port = p) ↔ ':' ∉ host ∨ p = 0)) ∧
    ∀ (host : Str) (p : Nat) (c : Connect ι), ((new host).set_port p).lookup parse_ip to_socket_addrs = .ok c →
      ∀ a ∈ c.addrs, a.port = p := by
  refine ⟨fun host d p c hhost hd hc => ?_, fun host p c hc => (addrs_lookup rfl hc).2⟩
  obtain ⟨hne, hport⟩ := addrs_lookup rfl hc
  cases hhost with
  | plain h =>
    have hp : (new (host ++ ':' :: d) : Connect ι).port = p := by rw [new, parse_plain h, hd]; rfl
    exact iff_of_true (hp ▸ hport) (.inl h)
  | bracketed h =>
    next s =>
    have hp : (new ('[' :: s ++ [']'] ++ ':' :: d) : Connect ι).port = 0 := by
      rw [new, show '[' :: s ++ [']'] ++ ':' :: d = '[' :: s ++ ']' :: ':' :: d by simp, parse_bracketed h]
      rfl
    obtain ⟨a, ha⟩ := exists_mem_of_ne_nil _ hne
    have h0 : a.port = 0 := (hport a ha).trans hp
    refine ⟨fun hall => .inr ((hall a ha).symm.trans h0), fun ho b hb => ?_⟩
    rcases ho with ho | rfl
    · exact absurd (by simp [h]) ho
    · exact (hport b hb).trans hp

/-- The name service finds one address with the port that it was given, for `name:80`. -/
theorem connect_port_eighty :
    ∃ c : Connect Unit, (new "name:80".toList).lookup (fun _ => none) (fun _ => some [⟨(), 80⟩]) = .ok c ∧
      ∀ a ∈ c.addrs, a.port = 80 := by
  refine ⟨{ req := "name:80".toList, port := 80, addr := some (.inl ⟨(), 80⟩) }, rfl, ?_⟩
  have hport := (connect_port_iff (fun _ => none) (fun _ => some [⟨(), 80⟩])).1 "name".toList "80".toList 80
  exact (hport _ (.plain (by decide)) rfl rfl).2 (.inl (by decide))

/-- The address for `[::1]:80` has port 0. -/
theorem connect_port_lost :
    ∃ c : Connect Unit, (new "[::1]:80".toList).lookup (fun _ => none) (fun _ => some [⟨(), 80⟩]) = .ok c ∧
      c.addrs = [⟨(), 0⟩] := ⟨_, rfl, rfl⟩

end Connect

end Geario.Net
