import Iwan.Proxy.Parse

/- The frames of a SOCKS5 client, written out. -/
namespace Iwan

open BigEndian

theorem toNat_ofNat_length {bytes : List UInt8} (short : bytes.length ≤ 255) :
    (UInt8.ofNat bytes.length).toNat = bytes.length := by
  rw [UInt8.toNat_ofNat', Nat.mod_eq_of_lt (by omega)]

def counted (bytes : List UInt8) : List UInt8 := UInt8.ofNat bytes.length :: bytes

variable {d : List UInt8}

theorem drop_eq_counted {offset : Nat} (inside : offset + 1 + (byteAt d offset).toNat ≤ d.length) :
    d.drop offset = counted ((d.drop (offset + 1)).take (byteAt d offset).toNat) ++
      d.drop (offset + 1 + (byteAt d offset).toNat) := by
  have size : ((d.drop (offset + 1)).take (byteAt d offset).toNat).length =
      (byteAt d offset).toNat := by
    rw [List.length_take, List.length_drop]
    omega
  have rest := List.take_append_drop (byteAt d offset).toNat (d.drop (offset + 1))
  rw [List.drop_drop] at rest
  rw [counted, size, UInt8.ofNat_toNat, List.cons_append, rest]
  exact drop_eq_byteAt_cons d (by omega)

def greetingFrame (methods : List UInt8) : List UInt8 := 5 :: counted methods

theorem ppSocksGreeting_frame {haveToken : Bool} {methods : List UInt8} (rest : List UInt8)
    (short : methods.length ≤ 255) :
    ppSocksGreeting (greetingFrame methods ++ rest) haveToken =
      some (socksMethod haveToken methods) := by
  have size := toNat_ofNat_length short
  unfold ppSocksGreeting greetingFrame counted
  rw [List.cons_append, List.cons_append, byteAt_succ, byteAt_zero, byteAt_zero, size]
  rw [if_neg (by simp), if_neg (by simp), if_neg (by simp; omega)]
  rw [show List.drop 2 (5 :: UInt8.ofNat methods.length :: (methods ++ rest)) = methods ++ rest
    from rfl, List.take_left' rfl]

theorem ppSocksGreeting_eq_some {haveToken : Bool} {method : UInt8}
    (judged : ppSocksGreeting d haveToken = some method) :
    ∃ methods, methods.length ≤ 255 ∧ method = socksMethod haveToken methods ∧
      d = greetingFrame methods ++ d.drop (2 + (byteAt d 1).toNat) := by
  obtain ⟨version, whole, rfl⟩ := ppSocksGreeting_judged judged
  have small := (byteAt d 1).toNat_lt
  refine ⟨(d.drop 2).take (byteAt d 1).toNat, ?_, rfl, ?_⟩
  · rw [List.length_take]
    omega
  · have head := drop_eq_byteAt_cons d (show 0 < d.length by omega)
    rw [List.drop_zero, version, Nat.zero_add, drop_eq_counted whole] at head
    exact head

theorem greetingFrame_drop {methods : List UInt8} (rest : List UInt8)
    (short : methods.length ≤ 255) :
    (greetingFrame methods ++ rest).drop
      (2 + (byteAt (greetingFrame methods ++ rest) 1).toNat) = rest := by
  have count : byteAt (greetingFrame methods ++ rest) 1 = UInt8.ofNat methods.length := rfl
  rw [count, toNat_ofNat_length short, greetingFrame, counted, List.cons_append, List.cons_append,
    Nat.add_comm, List.drop_succ_cons, List.drop_succ_cons, List.drop_left' rfl]

def authFrame (user pass : List UInt8) : List UInt8 := 1 :: counted user ++ counted pass

theorem authFrame_length (user pass : List UInt8) :
    (authFrame user pass).length = 2 + user.length + 1 + pass.length := by
  simp [authFrame, counted]
  omega

theorem ppSocksAuthFrame_frame {user pass : List UInt8} {usz : Nat} (rest : List UInt8)
    (named : user ≠ []) (fits : user.length < usz) (short : user.length ≤ 255)
    (given : pass ≠ []) (short' : pass.length ≤ 255) :
    ppSocksAuthFrame (authFrame user pass ++ rest) usz = some (.valid user pass) := by
  have userSize := toNat_ofNat_length short
  have passSize := toNat_ofNat_length short'
  have some_user := List.length_pos_of_ne_nil named
  have some_pass := List.length_pos_of_ne_nil given
  have layout : authFrame user pass ++ rest =
      1 :: UInt8.ofNat user.length :: (user ++ (UInt8.ofNat pass.length :: (pass ++ rest))) := by
    simp [authFrame, counted]
  have second : byteAt (authFrame user pass ++ rest) 1 = UInt8.ofNat user.length := by
    rw [layout]
    rfl
  have third : byteAt (authFrame user pass ++ rest) (2 + user.length) =
      UInt8.ofNat pass.length := by
    have moved := byteAt_append_right user (UInt8.ofNat pass.length :: (pass ++ rest)) 0
    rw [layout, Nat.add_comm 2, byteAt_succ, byteAt_succ]
    exact moved
  have nonzero {bytes : List UInt8} (short : bytes.length ≤ 255) (some : 0 < bytes.length) :
      UInt8.ofNat bytes.length ≠ 0 := by
    intro zero
    have size := toNat_ofNat_length short
    rw [zero] at size
    exact absurd size (by rw [UInt8.toNat_zero]; omega)
  have size : (authFrame user pass ++ rest).length =
      2 + user.length + 1 + pass.length + rest.length := by
    rw [List.length_append, authFrame_length]
  unfold ppSocksAuthFrame authFrameLen
  rw [second, userSize, third, passSize, size]
  rw [if_neg (by omega), if_neg, if_neg (by omega), if_neg (nonzero short' some_pass),
    if_neg (by omega), if_neg (by omega)]
  · congr 2
    · rw [layout]
      exact List.take_left' rfl
    · rw [layout]
      have cut : List.drop (2 + user.length + 1) (1 :: UInt8.ofNat user.length ::
          (user ++ (UInt8.ofNat pass.length :: (pass ++ rest)))) = pass ++ rest := by
        rw [show 2 + user.length + 1 = user.length + 1 + 1 + 1 by omega, List.drop_succ_cons,
          List.drop_succ_cons, List.drop_length_add_append]
        rfl
      rw [cut]
      exact List.take_left' rfl
  · rintro (version | empty)
    · exact version rfl
    · exact nonzero short some_user empty

theorem ppSocksAuthFrame_eq_valid {user pass : List UInt8} {usz : Nat}
    (judged : ppSocksAuthFrame d usz = some (.valid user pass)) :
    d = authFrame user pass ++ d.drop (authFrameLen d) ∧ user ≠ [] ∧ user.length < usz ∧
      pass ≠ [] ∧ pass.length ≤ 255 := by
  obtain ⟨version, named, given, whole, fits, rfl, rfl⟩ := ppSocksAuthFrame_valid judged
  have small := (byteAt d 1).toNat_lt
  have small' := (byteAt d (2 + (byteAt d 1).toNat)).toNat_lt
  have positive {c : UInt8} (nonzero : c ≠ 0) : 0 < c.toNat :=
    Nat.pos_of_ne_zero fun zero => nonzero (UInt8.toNat_inj.mp zero)
  have some_user := positive named
  have some_pass := positive given
  unfold authFrameLen at whole
  have userSize : ((d.drop 2).take (byteAt d 1).toNat).length = (byteAt d 1).toNat := by
    rw [List.length_take, List.length_drop]
    omega
  have passSize : ((d.drop (2 + (byteAt d 1).toNat + 1)).take
      (byteAt d (2 + (byteAt d 1).toNat)).toNat).length =
        (byteAt d (2 + (byteAt d 1).toNat)).toNat := by
    rw [List.length_take, List.length_drop]
    omega
  refine ⟨?_, ?_, by omega, ?_, by omega⟩
  · have head := drop_eq_byteAt_cons d (show 0 < d.length by omega)
    rw [List.drop_zero, version, Nat.zero_add,
      drop_eq_counted (show 1 + 1 + (byteAt d 1).toNat ≤ d.length by omega),
      drop_eq_counted whole] at head
    rw [authFrame, authFrameLen, List.cons_append, List.cons_append, List.append_assoc]
    exact head
  · intro none
    rw [none] at userSize
    exact absurd userSize (by rw [List.length_nil]; omega)
  · intro none
    rw [none] at passSize
    exact absurd passSize (by rw [List.length_nil]; omega)

def PpTarget.addressField (t : PpTarget) : List UInt8 :=
  match t.af with
  | .v4 => 1 :: t.ip4
  | .v6 => 4 :: t.ip6
  | .domain => 3 :: counted t.host

def connectFrame (t : PpTarget) : List UInt8 := [5, 1, 0] ++ t.addressField ++ bytes16 t.port

/-- The targets that a CONNECT frame can name. -/
inductive PpTarget.Requestable : PpTarget → Prop where
  | v4 (ip4 : List UInt8) (port : UInt16) (size : ip4.length = 4) :
      Requestable { PpTarget.zero with af := .v4, ip4 := ip4, port := port }
  | v6 (ip6 : List UInt8) (port : UInt16) (size : ip6.length = 16) :
      Requestable { PpTarget.zero with af := .v6, ip6 := ip6, port := port }
  | domain (host : List UInt8) (port : UInt16) (named : host ≠ []) (short : host.length ≤ 255) :
      Requestable { PpTarget.zero with host := host, port := port }

theorem drop_eq_port {offset : Nat} (inside : offset + 2 ≤ d.length) : d.drop offset =
      bytes16 (be16 (byteAt d offset) (byteAt d (offset + 1))) ++ d.drop (offset + 2) := by
  rw [bytes16_be16, drop_eq_byteAt_cons d (by omega), drop_eq_byteAt_cons d (by omega)]
  rfl

theorem ppSocksRequest_eq_target {t : PpTarget} (judged : ppSocksRequest d = some (.target t)) :
    t.Requestable ∧ d = connectFrame t ++ d.drop (socksRequestEnd d) := by
  obtain ⟨version, command, reserved, address⟩ := ppSocksRequest_judged judged
  have long : 4 < d.length := by
    rcases address with ⟨_, whole, _⟩ | ⟨_, whole, _⟩ | ⟨_, _, whole, _⟩ <;> omega
  have head : d = 5 :: 1 :: 0 :: byteAt d 3 :: d.drop 4 := by
    have first := drop_eq_byteAt_cons d (show 0 < d.length by omega)
    rw [List.drop_zero, version, drop_eq_byteAt_cons d (show 0 + 1 < d.length by omega),
      Nat.zero_add, command, drop_eq_byteAt_cons d (show 1 + 1 < d.length by omega), reserved,
      drop_eq_byteAt_cons d (show 2 + 1 < d.length by omega)] at first
    exact first
  have field (offset count : Nat) :
      d.drop offset = (d.drop offset).take count ++ d.drop (offset + count) := by
    rw [← List.drop_drop, List.take_append_drop]
  unfold socksRequestEnd
  rcases address with ⟨ipv4, whole, rfl⟩ | ⟨ipv6, whole, rfl⟩ | ⟨named, nonempty, whole, rfl⟩
  · refine ⟨.v4 _ _ (by rw [List.length_take, List.length_drop]; omega), ?_⟩
    rw [if_pos ipv4]
    conv_lhs => rw [head, ipv4, field 4 4, drop_eq_port (show 4 + 4 + 2 ≤ d.length by omega)]
    simp [connectFrame, PpTarget.addressField]
  · refine ⟨.v6 _ _ (by rw [List.length_take, List.length_drop]; omega), ?_⟩
    rw [ipv6]
    conv_lhs => rw [head, ipv6, field 4 16, drop_eq_port (show 4 + 16 + 2 ≤ d.length by omega)]
    simp [connectFrame, PpTarget.addressField]
  · have small := (byteAt d 4).toNat_lt
    refine ⟨.domain _ _ ?_ ?_, ?_⟩
    · intro none
      have size := congrArg List.length none
      rw [List.length_take, List.length_drop, List.length_nil] at size
      omega
    · rw [List.length_take]
      omega
    · rw [named]
      conv_lhs => rw [head, named,
        drop_eq_counted (show 4 + 1 + (byteAt d 4).toNat ≤ d.length by omega),
        drop_eq_port (show 4 + 1 + (byteAt d 4).toNat + 2 ≤ d.length by omega)]
      rw [connectFrame, show 6 + (byteAt d 4).toNat = 5 + (byteAt d 4).toNat + 1 by omega]
      simp [PpTarget.addressField, PpTarget.zero]

theorem ppSocksRequest_head {atyp : UInt8} {body : List UInt8} :
    ppSocksRequest (5 :: 1 :: 0 :: atyp :: body) =
      ppSocksAddress (5 :: 1 :: 0 :: atyp :: body) := by
  rw [ppSocksRequest, if_neg (by simp), if_neg (fun other => other rfl),
    if_neg (fun other => other rfl), if_neg (fun other => other rfl)]

theorem byteAt_atyp {atyp : UInt8} {body : List UInt8} :
    byteAt (5 :: 1 :: 0 :: atyp :: body) 3 = atyp := rfl

theorem ppSocksRequest_frame {t : PpTarget} (rest : List UInt8) (requestable : t.Requestable) :
    ppSocksRequest (connectFrame t ++ rest) = some (.target t) := by
  have port_of (body : List UInt8) (port : UInt16) :
      be16 (byteAt (body ++ (bytes16 port ++ rest)) body.length)
        (byteAt (body ++ (bytes16 port ++ rest)) (body.length + 1)) = port := by
    have hi := byteAt_append_right body (bytes16 port ++ rest) 0
    have lo := byteAt_append_right body (bytes16 port ++ rest) 1
    rw [Nat.add_zero] at hi
    rw [hi, lo]
    exact be16_bytes16 port
  cases requestable with
  | v4 ip4 port size =>
    have layout :
        connectFrame { PpTarget.zero with af := .v4, ip4 := ip4, port := port } ++ rest =
        5 :: 1 :: 0 :: 1 :: (ip4 ++ (bytes16 port ++ rest)) := by
      simp [connectFrame, PpTarget.addressField]
    have read := port_of ip4 port
    rw [size] at read
    rw [layout, ppSocksRequest_head, ppSocksAddress, byteAt_atyp, if_pos rfl,
      if_neg (by simp; omega)]
    simp only [byteAt_succ, List.drop_succ_cons, List.drop_zero, List.take_left' size, read]
  | v6 ip6 port size =>
    have layout :
        connectFrame { PpTarget.zero with af := .v6, ip6 := ip6, port := port } ++ rest =
        5 :: 1 :: 0 :: 4 :: (ip6 ++ (bytes16 port ++ rest)) := by
      simp [connectFrame, PpTarget.addressField]
    have read := port_of ip6 port
    rw [size] at read
    rw [layout, ppSocksRequest_head, ppSocksAddress, byteAt_atyp, if_neg (by decide), if_pos rfl,
      if_neg (by simp; omega)]
    simp only [byteAt_succ, List.drop_succ_cons, List.drop_zero, List.take_left' size, read]
  | domain host port named short =>
    have layout : connectFrame { PpTarget.zero with host := host, port := port } ++ rest =
        5 :: 1 :: 0 :: 3 :: UInt8.ofNat host.length :: (host ++ (bytes16 port ++ rest)) := by
      simp [connectFrame, PpTarget.addressField, PpTarget.zero, counted]
    have some_host := List.length_pos_of_ne_nil named
    have read := port_of host port
    rw [layout, ppSocksRequest_head, ppSocksAddress, byteAt_atyp, if_neg (by decide),
      if_neg (by decide), if_pos rfl, if_neg (by simp)]
    have size : (byteAt (5 :: 1 :: 0 :: 3 :: UInt8.ofNat host.length ::
        (host ++ (bytes16 port ++ rest))) 4).toNat = host.length := toNat_ofNat_length short
    rw [size, if_neg (by omega), if_neg (by simp; omega), Nat.add_comm 5, Nat.add_comm 6]
    simp only [byteAt_succ, List.drop_succ_cons, List.drop_zero, List.take_left' rfl, read]

end Iwan
