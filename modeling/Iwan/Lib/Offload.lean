import Iwan.Lib.Trace

/- A datagram socket with segmentation offload. -/
namespace Offload

section

variable {α : Type}

def cutWithin : Nat → Nat → List α → List (List α)
  | 0, _, msg => [msg]
  | fuel + 1, m, msg =>
    if m = 0 ∨ msg.length ≤ m then [msg]
    else msg.take m :: cutWithin fuel m (msg.drop m)

def cut (m : Nat) (msg : List α) : List (List α) := cutWithin msg.length m msg

theorem cut_whole {m : Nat} {msg : List α} (fits : m = 0 ∨ msg.length ≤ m) :
    cut m msg = [msg] := by
  rw [cut]
  cases msg.length with
  | zero => rfl
  | succ fuel => rw [cutWithin, if_pos fits]

theorem cutWithin_flatten {m : Nat} (positive : 0 < m) (parts : List (List α)) (fuel : Nat)
    (some : parts ≠ []) (uniform : ∀ part ∈ parts, part.length = m)
    (enough : parts.flatten.length ≤ fuel) : cutWithin fuel m parts.flatten = parts := by
  induction parts generalizing fuel with
  | nil => exact absurd rfl some
  | cons part rest ih =>
    have size : part.length = m := uniform part List.mem_cons_self
    cases rest with
    | nil =>
      rw [List.flatten_cons, List.flatten_nil, List.append_nil]
      cases fuel with
      | zero => rfl
      | succ fuel => rw [cutWithin, if_pos (.inr (by omega))]
    | cons next rest =>
      have size' : next.length = m :=
        uniform next (List.mem_cons_of_mem _ List.mem_cons_self)
      rw [List.flatten_cons] at enough ⊢
      rw [List.length_append] at enough
      have longer : m < (part ++ (next :: rest).flatten).length := by
        rw [List.flatten_cons, List.length_append, List.length_append]
        omega
      obtain ⟨fuel, rfl⟩ : ∃ k, fuel = k + 1 := ⟨fuel - 1, by omega⟩
      rw [cutWithin, if_neg (by omega), ← size, List.take_left, List.drop_left, size]
      rw [ih fuel (List.cons_ne_nil _ _)
        (fun p found => uniform p (List.mem_cons_of_mem _ found)) (by omega)]

theorem cut_flatten {m : Nat} (positive : 0 < m) {parts : List (List α)} (some : parts ≠ [])
    (uniform : ∀ part ∈ parts, part.length = m) : cut m parts.flatten = parts :=
  cutWithin_flatten positive parts _ some uniform (Nat.le_refl _)

def upto : Nat → List (List α) → List (List α)
  | _, [] => []
  | n, part :: rest => if part.length ≤ n then part :: upto (n - part.length) rest else []

theorem upto_sublist (n : Nat) (parts : List (List α)) : (upto n parts).Sublist parts := by
  induction parts generalizing n with
  | nil => exact List.nil_sublist []
  | cons part rest ih =>
    rw [upto]
    split
    · exact (ih _).cons_cons part
    · exact List.nil_sublist _

theorem upto_all (parts : List (List α)) : upto parts.flatten.length parts = parts := by
  induction parts with
  | nil => rfl
  | cons part rest ih =>
    rw [upto, List.flatten_cons, List.length_append, if_pos (Nat.le_add_right _ _),
      Nat.add_sub_cancel_left, ih]

theorem upto_zero {parts : List (List α)} (nonempty : ∀ part ∈ parts, 0 < part.length) :
    upto 0 parts = [] := by
  cases parts with
  | nil => rfl
  | cons part rest =>
    have positive := nonempty part List.mem_cons_self
    rw [upto, if_neg (by omega)]

end

section

variable {α : Type}

/-- A call with its answer: setting the segment size, one gathered message, several messages. -/
inductive Call (α : Type) where
  | segment (m : Nat) (ok : Bool)
  | message (parts : List (List α)) (took : Option Nat)
  | messages (msgs : List (List α)) (took : Nat)
deriving DecidableEq, Repr

def enter (m : Nat) (call : Call α) : Nat × List (List α) :=
  match call with
  | .segment v ok => (if ok || v == 0 then v else m, [])
  | .message parts took =>
    (m, match took with
      | none => []
      | some r => upto r (cut m parts.flatten))
  | .messages msgs took => (m, ((msgs.take took).map (cut m)).flatten)

def size (m : Nat) (calls : List (Call α)) : Nat := Trace.final enter m calls

def wire (m : Nat) (calls : List (Call α)) : List (List α) := Trace.emitted enter m calls

/-- The messages that calls hand over, whatever the socket makes of them. -/
def Call.handed : Call α → List (List α)
  | .segment _ _ => []
  | .message parts took => upto (took.getD 0) parts
  | .messages msgs took => msgs.take took

def handed (calls : List (Call α)) : List (List α) := calls.flatMap Call.handed

theorem handed_append (front back : List (Call α)) :
    handed (front ++ back) = handed front ++ handed back := List.flatMap_append

@[simp] theorem size_nil (m : Nat) : size m ([] : List (Call α)) = m := rfl

@[simp] theorem wire_nil (m : Nat) : wire m ([] : List (Call α)) = [] := rfl

@[simp] theorem size_cons (m : Nat) (call : Call α) (rest : List (Call α)) :
    size m (call :: rest) = size (enter m call).1 rest := rfl

@[simp] theorem wire_cons (m : Nat) (call : Call α) (rest : List (Call α)) :
    wire m (call :: rest) = (enter m call).2 ++ wire (enter m call).1 rest := rfl

theorem size_append (m : Nat) (front back : List (Call α)) :
    size m (front ++ back) = size (size m front) back := Trace.final_append enter m front back

theorem wire_append (m : Nat) (front back : List (Call α)) :
    wire m (front ++ back) = wire m front ++ wire (size m front) back :=
  Trace.emitted_append enter m front back

theorem size_refused {m v : Nat} (positive : 0 < v) :
    size m [Call.segment (α := α) v false] = m := by
  show (if false || v == 0 then v else m) = m
  rw [if_neg (by simp; omega)]

theorem enter_short {m : Nat} {msg : List α} (fits : m = 0 ∨ msg.length ≤ m) (took : Option Nat) :
    (enter m (.message [msg] took)).2.Sublist [msg] := by
  cases took with
  | none => exact List.nil_sublist _
  | some r =>
    show (upto r (cut m [msg].flatten)).Sublist [msg]
    rw [List.flatten_cons, List.flatten_nil, List.append_nil, cut_whole fits]
    exact upto_sublist r [msg]

theorem enter_messages_whole (msgs : List (List α)) (took : Nat) :
    (enter 0 (.messages msgs took)).2 = msgs.take took := by
  show ((msgs.take took).map (cut 0)).flatten = _
  induction msgs.take took with
  | nil => rfl
  | cons msg rest ih =>
    rw [List.map_cons, List.flatten_cons, cut_whole (.inl rfl), ih]
    rfl

/-- A call whose messages leave a socket with option `m` as they are handed over. -/
def Call.Fits (m : Nat) : Call α → Prop
  | .segment _ _ => False
  | .message parts _ => cut m parts.flatten = parts ∧ upto 0 parts = []
  | .messages _ _ => m = 0

theorem enter_fits {m : Nat} {call : Call α} (fits : call.Fits m) :
    enter m call = (m, call.handed) := by
  cases call with
  | segment => exact fits.elim
  | message parts took =>
    obtain ⟨cuts, nothing⟩ := fits
    cases took with
    | none => exact congrArg (m, ·) nothing.symm
    | some r => exact congrArg (fun out => (m, upto r out)) cuts
  | messages msgs took =>
    cases fits
    exact congrArg (0, ·) (enter_messages_whole msgs took)

theorem wire_fits {m : Nat} {calls : List (Call α)} (fits : ∀ call ∈ calls, call.Fits m) :
    size m calls = m ∧ wire m calls = handed calls := by
  induction calls with
  | nil => exact ⟨rfl, rfl⟩
  | cons call rest ih =>
    obtain ⟨here, later⟩ := List.forall_mem_cons.mp fits
    rw [size_cons, wire_cons, enter_fits here, (ih later).2]
    exact ⟨(ih later).1, rfl⟩

end

section

variable {α : Type}

def interleave : List (List (List α × Option Nat)) → List (Call α) → List (Bool × Call α)
  | [], calls => calls.map (false, ·)
  | others :: more, calls =>
    (others.map fun send => (true, Call.message [send.1] send.2)) ++
      match calls with
      | [] => interleave more []
      | call :: calls => (false, call) :: interleave more calls

def enterBy (m : Nat) (call : Bool × Call α) : Nat × List (Bool × List α) :=
  ((enter m call.2).1, (enter m call.2).2.map (call.1, ·))

def sharedWire (m : Nat) (calls : List (Bool × Call α)) : List (Bool × List α) :=
  Trace.emitted enterBy m calls

def sharedSize (m : Nat) (calls : List (Bool × Call α)) : Nat := Trace.final enterBy m calls

def ofSender (who : Bool) (out : List (Bool × List α)) : List (List α) :=
  (out.filter (·.1 == who)).map (·.2)

def Call.Floored (floor : Nat) : Call α → Prop
  | .segment v _ => v = 0 ∨ floor ≤ v
  | _ => True

theorem ofSender_append (who : Bool) (front back : List (Bool × List α)) :
    ofSender who (front ++ back) = ofSender who front ++ ofSender who back := by
  rw [ofSender, List.filter_append, List.map_append]
  rfl

theorem ofSender_own (who : Bool) (out : List (List α)) :
    ofSender who (out.map (who, ·)) = out := by
  induction out with
  | nil => rfl
  | cons d rest ih =>
    rw [ofSender, List.map_cons, List.filter_cons, if_pos (beq_self_eq_true who), List.map_cons]
    exact congrArg (d :: ·) ih

theorem ofSender_other {who whom : Bool} (apart : who ≠ whom) (out : List (List α)) :
    ofSender whom (out.map (who, ·)) = [] := by
  induction out with
  | nil => rfl
  | cons d rest ih =>
    rw [ofSender, List.map_cons, List.filter_cons, if_neg (by simpa using apart)]
    exact ih

variable {floor : Nat}

theorem enter_floored {m : Nat} {call : Call α} (floored : call.Floored floor)
    (above : m = 0 ∨ floor ≤ m) : (enter m call).1 = 0 ∨ floor ≤ (enter m call).1 := by
  cases call with
  | segment v ok =>
    show (if ok || v == 0 then v else m) = 0 ∨ _ ≤ (if ok || v == 0 then v else m)
    split
    · exact floored
    · exact above
  | _ => exact above

theorem sharedSends {m : Nat} (above : m = 0 ∨ floor ≤ m)
    (others : List (List α × Option Nat)) (short : ∀ send ∈ others, send.1.length ≤ floor)
    (rest : List (Bool × Call α)) :
    let sends := others.map fun send => (true, Call.message [send.1] send.2)
    sharedSize m (sends ++ rest) = sharedSize m rest ∧
      ofSender false (sharedWire m (sends ++ rest)) = ofSender false (sharedWire m rest) ∧
      ∃ out, out.Sublist (others.map (·.1)) ∧
        ofSender true (sharedWire m (sends ++ rest)) =
          out ++ ofSender true (sharedWire m rest) := by
  induction others with
  | nil => exact ⟨rfl, rfl, [], List.nil_sublist _, rfl⟩
  | cons send more ih =>
    obtain ⟨size, apart, out, sub, own⟩ :=
      ih fun s found => short s (List.mem_cons_of_mem _ found)
    have fits : m = 0 ∨ send.1.length ≤ m := by
      have bound := short send List.mem_cons_self
      omega
    have left := enter_short fits send.2
    refine ⟨size, ?_, (enter m (.message [send.1] send.2)).2 ++ out, ?_, ?_⟩
    · show ofSender false ((enter m (.message [send.1] send.2)).2.map (true, ·) ++ _) = _
      rw [ofSender_append, ofSender_other (by decide), List.nil_append]
      exact apart
    · exact left.append sub
    · show ofSender true ((enter m (.message [send.1] send.2)).2.map (true, ·) ++ _) = _
      rw [ofSender_append, ofSender_own, List.append_assoc]
      exact congrArg (_ ++ ·) own

theorem interleave_wire (calls : List (Call α))
    (others : List (List (List α × Option Nat))) (m : Nat) (above : m = 0 ∨ floor ≤ m)
    (floored : ∀ call ∈ calls, call.Floored floor)
    (short : ∀ sends ∈ others, ∀ send ∈ sends, send.1.length ≤ floor) :
    sharedSize m (interleave others calls) = size m calls ∧
      ofSender false (sharedWire m (interleave others calls)) = wire m calls ∧
      (ofSender true (sharedWire m (interleave others calls))).Sublist
        (others.flatten.map (·.1)) := by
  -- one call of the loop, whatever was sent before it
  have one : ∀ (m : Nat) (call : Call α) (calls : List (Call α)) (rest : List (Bool × Call α)),
      sharedSize (enter m call).1 rest = size (enter m call).1 calls →
      ofSender false (sharedWire (enter m call).1 rest) = wire (enter m call).1 calls →
      sharedSize m ((false, call) :: rest) = size m (call :: calls) ∧
      ofSender false (sharedWire m ((false, call) :: rest)) = wire m (call :: calls) ∧
      ofSender true (sharedWire m ((false, call) :: rest)) =
        ofSender true (sharedWire (enter m call).1 rest) := by
    intro m call calls rest sizes wires
    refine ⟨sizes, ?_, ?_⟩
    · show ofSender false ((enter m call).2.map (false, ·) ++ sharedWire (enter m call).1 rest) = _
      rw [ofSender_append, ofSender_own, wires]
      rfl
    · show ofSender true ((enter m call).2.map (false, ·) ++ sharedWire (enter m call).1 rest) = _
      rw [ofSender_append, ofSender_other (by decide), List.nil_append]
  induction others generalizing calls m with
  | nil =>
    induction calls generalizing m with
    | nil => exact ⟨rfl, rfl, List.nil_sublist _⟩
    | cons call calls ih =>
      obtain ⟨sizes, wires, own⟩ := ih (enter m call).1
        (enter_floored (floored call List.mem_cons_self) above)
        (fun c found => floored c (List.mem_cons_of_mem _ found))
      obtain ⟨sizes', wires', own'⟩ := one m call calls _ sizes wires
      refine ⟨sizes', wires', ?_⟩
      show (ofSender true (sharedWire m ((false, call) :: interleave [] calls))).Sublist _
      rw [own']
      exact own
  | cons sends more ih =>
    have here := short sends List.mem_cons_self
    have later : ∀ s ∈ more, ∀ send ∈ s, send.1.length ≤ floor := fun s found =>
      short s (List.mem_cons_of_mem _ found)
    rw [List.flatten_cons, List.map_append]
    cases calls with
    | nil =>
      obtain ⟨sizes, wires, own⟩ := ih [] m above nofun later
      obtain ⟨size, apart, out, sub, mine⟩ := sharedSends above sends here (interleave more [])
      refine ⟨size.trans sizes, apart.trans wires, ?_⟩
      rw [interleave, mine]
      exact sub.append own
    | cons call calls =>
      obtain ⟨sizes, wires, own⟩ := ih calls (enter m call).1
        (enter_floored (floored call List.mem_cons_self) above)
        (fun c found => floored c (List.mem_cons_of_mem _ found)) later
      obtain ⟨sizes', wires', own'⟩ := one m call calls _ sizes wires
      obtain ⟨size, apart, out, sub, mine⟩ :=
        sharedSends above sends here ((false, call) :: interleave more calls)
      refine ⟨size.trans sizes', apart.trans wires', ?_⟩
      rw [interleave, mine, own']
      exact sub.append own

end

end Offload
