import Iwan.Client.Downlink
import Iwan.Lib.Custody

/- The receive buffers of the proxy (lwip_bridge.c, socks.c). -/
namespace Iwan

open Custody

def nsRxPool : Nat := 256
def rxVlen : Nat := 64
def rxBudget : Int := 256

abbrev RxSlot := Fin nsRxPool

/-- The receive buffers that lwIP may hold. -/
structure RxPool where
  init : Bool
  slots : State RxSlot

def RxPool.start : RxPool := ⟨false, ⟨[], [], false⟩⟩

def nsRxPoolInitOnce (p : RxPool) : RxPool :=
  if p.init then p
  else
    { init := true
      slots := { p.slots with
        free := (List.finRange nsRxPool).foldl (fun free s => s :: free) p.slots.free } }

def nsRxBufAcquire (p : RxPool) (max : Nat) : List RxSlot × RxPool :=
  let p := nsRxPoolInitOnce p
  ((p.slots.take max).1, { p with slots := (p.slots.take max).2 })

def nsRxBufRelease (p : RxPool) (slot : RxSlot) : RxPool :=
  { p with slots := p.slots.release slot }

def nsRxBufReleaseAll (p : RxPool) (slots : List RxSlot) : RxPool :=
  { p with slots := p.slots.releaseAll slots }

def nsRxSlotFree (p : RxPool) (slots : List RxSlot) : RxPool :=
  { p with slots := p.slots.giveBacks slots }

/-- A received datagram, with what follows from it outside. -/
structure RxDatagram where
  frame : List UInt8
  trunc : Bool
  now : UInt64
  pbuf : Bool
  frees : List RxSlot

def nsRxPacketRef (p : RxPool) (slot : RxSlot) (outerLen : Nat) (pbuf : Bool)
    (frees : List RxSlot) : RxPool :=
  if outerLen ≤ iwanHdrLen ∨ 1500 < outerLen - iwanHdrLen then nsRxBufRelease p slot
  else if !pbuf then nsRxBufRelease p slot
  else nsRxSlotFree { p with slots := p.slots.hand slot } frees

def rxEffects (p : RxPool) (slot : RxSlot) (d : RxDatagram) : List ClientEffect → RxPool
  | [] => p
  | .nsRxPacketRef bytes :: rest =>
    rxEffects (nsRxPacketRef p slot bytes.length d.pbuf d.frees) slot d rest
  | _ :: rest => rxEffects p slot d rest

/-- An error that ends the session, nothing to read, or datagrams. -/
inductive RecvResult where
  | failed
  | drained
  | batch (datagrams : List RxDatagram)

section

variable (crypto : Crypto) (machine : Machine) (dns : List UInt8 → Bool)

def rxBatch : List RxSlot → List RxDatagram → SocksConfig → RxPool → Bool × SocksConfig × RxPool
  | slots, [], cfg, p => (false, cfg, nsRxBufReleaseAll p slots)
  | [], _ :: _, cfg, p => (false, cfg, p)
  | slot :: slots, d :: datagrams, cfg, p =>
    if d.frame.length < 8 ∨ d.trunc then
      rxBatch slots datagrams cfg (nsRxBufRelease p slot)
    else
      let (cfg, effects, code) := vpnHandleDatagram crypto machine dns cfg d.frame false d.now
      let p := rxEffects p slot d effects
      match code with
      | .stop => (true, cfg, nsRxBufReleaseAll (nsRxBufRelease p slot) slots)
      | .release => rxBatch slots datagrams cfg (nsRxBufRelease p slot)
      | .taken => rxBatch slots datagrams cfg p

def copyBatch : List RxDatagram → SocksConfig → RxPool → Bool × SocksConfig × RxPool
  | [], cfg, p => (false, cfg, p)
  | d :: datagrams, cfg, p =>
    if d.frame.length < 8 ∨ d.trunc then copyBatch datagrams cfg p
    else
      let (cfg, _, code) := vpnHandleDatagram crypto machine dns cfg d.frame true d.now
      match code with
      | .stop => (true, cfg, p)
      | .release => copyBatch datagrams cfg p
      | .taken => copyBatch datagrams cfg (nsRxSlotFree p d.frees)

def copyDrain : List RecvResult → Int → SocksConfig → RxPool → Int × SocksConfig × RxPool
  | [], _, cfg, p => (0, cfg, p)
  | result :: results, budget, cfg, p =>
    if budget ≤ 0 then (0, cfg, p)
    else
      match result with
      | .failed => (-1, { cfg with sessionLost := true }, p)
      | .drained => (0, cfg, p)
      | .batch datagrams =>
        let datagrams := datagrams.take rxVlen
        if datagrams = [] then (0, cfg, p)
        else
          match copyBatch crypto machine dns datagrams cfg p with
          | (true, cfg, p) => (-1, cfg, p)
          | (false, cfg, p) =>
            if datagrams.length < rxVlen then (0, cfg, p)
            else copyDrain results (budget - datagrams.length) cfg p

def receiveDrain : List RecvResult → Int → SocksConfig → RxPool → Int × SocksConfig × RxPool
  | [], budget, cfg, p =>
    if budget ≤ 0 then (0, cfg, p)
    else
      let (bufs, p) := nsRxBufAcquire p rxVlen
      (0, cfg, nsRxBufReleaseAll p bufs)
  | result :: results, budget, cfg, p =>
    if budget ≤ 0 then (0, cfg, p)
    else
      let (bufs, p) := nsRxBufAcquire p rxVlen
      if bufs = [] then copyDrain crypto machine dns (result :: results) budget cfg p
      else
        match result with
        | .failed => (-1, { cfg with sessionLost := true }, nsRxBufReleaseAll p bufs)
        | .drained => (0, cfg, nsRxBufReleaseAll p bufs)
        | .batch datagrams =>
          let datagrams := datagrams.take bufs.length
          if datagrams = [] then (0, cfg, nsRxBufReleaseAll p bufs)
          else
            match rxBatch crypto machine dns bufs datagrams cfg p with
            | (true, cfg, p) => (-1, cfg, p)
            | (false, cfg, p) =>
              if datagrams.length < bufs.length then (0, cfg, p)
              else receiveDrain results (budget - datagrams.length) cfg p

def receiveVpn (results : List RecvResult) (cfg : SocksConfig) (p : RxPool) :
    Int × SocksConfig × RxPool :=
  receiveDrain crypto machine dns results rxBudget cfg p

/-- receive_vpn, or lwIP letting buffers go. -/
inductive RxEvent where
  | receive (results : List RecvResult) (cfg : SocksConfig)
  | lwipFrees (slots : List RxSlot)

def rxStep (p : RxPool) : RxEvent → RxPool
  | .receive results cfg => (receiveVpn crypto machine dns results cfg p).2.2
  | .lwipFrees slots => nsRxSlotFree p slots

def rxRun (p : RxPool) (events : List RxEvent) : RxPool :=
  events.foldl (rxStep crypto machine dns) p

end

def RxBalanced (own : List RxSlot) (p : RxPool) : Prop :=
  p.init = true ∧ Balanced (List.finRange nsRxPool) own p.slots

section

variable {crypto : Crypto} {machine : Machine} {dns : List UInt8 → Bool} {own : List RxSlot}
  {p : RxPool} {slot : RxSlot}

theorem slots_nodup : (List.finRange nsRxPool).Nodup := List.nodup_finRange _

theorem RxBalanced.release (balanced : RxBalanced (slot :: own) p) :
    RxBalanced own (nsRxBufRelease p slot) :=
  ⟨balanced.1, balanced.2.release slots_nodup⟩

theorem RxBalanced.releaseAll (balanced : RxBalanced own p) :
    RxBalanced [] (nsRxBufReleaseAll p own) :=
  ⟨balanced.1, balanced.2.releaseAll slots_nodup⟩

theorem RxBalanced.slotFree (balanced : RxBalanced own p) (frees : List RxSlot) :
    RxBalanced own (nsRxSlotFree p frees) :=
  ⟨balanced.1, balanced.2.giveBacks slots_nodup frees⟩

def RxReady (p : RxPool) : Prop :=
  (p.init = false ∧ p.slots = ⟨[], [], false⟩) ∨ RxBalanced [] p

theorem balanced_pushed (all : List RxSlot) :
    Balanced all [] ⟨all.foldl (fun free s => s :: free) [], [], false⟩ where
  each := by
    rw [List.nil_append, List.append_nil, List.foldl_flip_cons_eq_append', List.append_nil]
    exact List.reverse_perm all
  single := rfl

theorem RxReady.initOnce (ready : RxReady p) : RxBalanced [] (nsRxPoolInitOnce p) := by
  rcases ready with ⟨fresh, empty⟩ | balanced
  · unfold nsRxPoolInitOnce
    rw [if_neg (by simp [fresh]), empty]
    exact ⟨rfl, balanced_pushed _⟩
  · unfold nsRxPoolInitOnce
    rw [if_pos balanced.1]
    exact balanced

theorem RxReady.acquire (ready : RxReady p) (max : Nat) :
    RxBalanced (nsRxBufAcquire p max).1 (nsRxBufAcquire p max).2 :=
  ⟨ready.initOnce.1, ready.initOnce.2.take max⟩

theorem RxBalanced.packetRef (balanced : RxBalanced (slot :: own) p) (outerLen : Nat) (pbuf : Bool)
    (frees : List RxSlot) : RxBalanced own (nsRxPacketRef p slot outerLen pbuf frees) := by
  unfold nsRxPacketRef
  split_ifs
  · exact balanced.release
  · exact balanced.release
  · have given : RxBalanced own { p with slots := p.slots.hand slot } :=
      ⟨balanced.1, balanced.2.hand⟩
    exact given.slotFree frees

def handed (effects : List ClientEffect) : List (List UInt8) :=
  effects.filterMap fun
    | .nsRxPacketRef bytes => some bytes
    | _ => none

variable {effects : List ClientEffect}

theorem rxEffects_none (d : RxDatagram) (none : handed effects = []) :
    rxEffects p slot d effects = p := by
  induction effects with
  | nil => rfl
  | cons effect effects ih =>
    cases effect with
    | nsRxPacketRef bytes => cases none
    | _ => exact ih none

theorem rxEffects_one (d : RxDatagram) {bytes : List UInt8} (one : handed effects = [bytes]) :
    rxEffects p slot d effects = nsRxPacketRef p slot bytes.length d.pbuf d.frees := by
  induction effects with
  | nil => cases one
  | cons effect effects ih =>
    cases effect with
    | nsRxPacketRef bytes' =>
      obtain ⟨rfl, rest⟩ : bytes' = bytes ∧ handed effects = [] := List.cons_eq_cons.mp one
      exact rxEffects_none d rest
    | _ => exact ih one

def CodeOwns (code : RxCode) (effects : List ClientEffect) : Prop :=
  match code with
  | .taken => ∃ bytes, handed effects = [bytes]
  | _ => handed effects = []

theorem vpnHandleData_owns (cfg : SocksConfig) (typ : FrameType) (b : List UInt8) :
    CodeOwns (vpnHandleData machine dns cfg typ b false).2
      (vpnHandleData machine dns cfg typ b false).1 := by
  unfold vpnHandleData
  split
  · rfl
  · split_ifs with short filtered matched copied
    · rfl
    · rfl
    · rfl
    · exact copied.elim
    · exact ⟨_, rfl⟩

theorem vpnHandleDatagram_owns (cfg : SocksConfig) (b : List UInt8) (now : UInt64) :
    CodeOwns (vpnHandleDatagram crypto machine dns cfg b false now).2.2
      (vpnHandleDatagram crypto machine dns cfg b false now).2.1 := by
  unfold vpnHandleDatagram
  dsimp only
  by_cases other : hdrSid b ≠ cfg.session.sid ∨ hdrTok b ≠ cfg.session.token
  · rw [if_pos other]
    rfl
  · rw [if_neg other]
    split
    · split_ifs
      · rfl
      · rfl
    · split_ifs
      · rfl
      · rfl
    · exact vpnHandleData_owns _ _ b
    · exact vpnHandleData_owns _ _ b
    · rfl

theorem RxBalanced.batch {slots : List RxSlot} (datagrams : List RxDatagram) (cfg : SocksConfig)
    (balanced : RxBalanced slots p) (fits : datagrams.length ≤ slots.length) :
    RxBalanced [] (rxBatch crypto machine dns slots datagrams cfg p).2.2 := by
  induction datagrams generalizing slots cfg p with
  | nil =>
    cases slots with
    | nil => exact balanced.releaseAll
    | cons slot slots => exact balanced.releaseAll
  | cons d datagrams ih =>
    cases slots with
    | nil => exact absurd fits (by simp)
    | cons slot slots =>
      have fits' : datagrams.length ≤ slots.length := Nat.le_of_succ_le_succ fits
      rw [rxBatch]
      split_ifs
      · exact ih cfg balanced.release fits'
      · have owns : CodeOwns (vpnHandleDatagram crypto machine dns cfg d.frame false d.now).2.2
            (vpnHandleDatagram crypto machine dns cfg d.frame false d.now).2.1 :=
          vpnHandleDatagram_owns cfg d.frame d.now
        generalize vpnHandleDatagram crypto machine dns cfg d.frame false d.now = result at owns
        obtain ⟨cfg', effects, code⟩ := result
        cases code with
        | stop =>
          dsimp only
          rw [rxEffects_none d owns]
          exact balanced.release.releaseAll
        | release =>
          dsimp only
          rw [rxEffects_none d owns]
          exact ih cfg' balanced.release fits'
        | taken =>
          obtain ⟨bytes, one⟩ := owns
          dsimp only
          rw [rxEffects_one d one]
          exact ih cfg' (balanced.packetRef _ _ _) fits'

theorem RxBalanced.copyBatch (datagrams : List RxDatagram) (cfg : SocksConfig)
    (balanced : RxBalanced own p) :
    RxBalanced own (copyBatch crypto machine dns datagrams cfg p).2.2 := by
  induction datagrams generalizing cfg p with
  | nil => exact balanced
  | cons d datagrams ih =>
    rw [Iwan.copyBatch]
    split_ifs
    · exact ih cfg balanced
    · generalize vpnHandleDatagram crypto machine dns cfg d.frame true d.now = result
      obtain ⟨cfg', effects, code⟩ := result
      cases code with
      | stop => exact balanced
      | release => exact ih cfg' balanced
      | taken => exact ih cfg' (balanced.slotFree d.frees)

theorem RxBalanced.copyDrain (results : List RecvResult) (budget : Int) (cfg : SocksConfig)
    (balanced : RxBalanced own p) :
    RxBalanced own (copyDrain crypto machine dns results budget cfg p).2.2 := by
  induction results generalizing budget cfg p with
  | nil => exact balanced
  | cons result results ih =>
    unfold Iwan.copyDrain
    by_cases spent : budget ≤ 0
    · rw [if_pos spent]
      exact balanced
    · rw [if_neg spent]
      cases result with
      | batch datagrams =>
        dsimp only
        by_cases empty : datagrams.take rxVlen = []
        · rw [if_pos empty]
          exact balanced
        · rw [if_neg empty]
          have next : RxBalanced own
              (Iwan.copyBatch crypto machine dns (datagrams.take rxVlen) cfg p).2.2 :=
            balanced.copyBatch _ cfg
          generalize Iwan.copyBatch crypto machine dns (datagrams.take rxVlen) cfg p = after
            at next
          obtain ⟨stopped, cfg', p'⟩ := after
          cases stopped with
          | true => exact next
          | false =>
            dsimp only
            split_ifs
            · exact next
            · exact ih _ cfg' next
      | _ => exact balanced

theorem RxReady.drain (results : List RecvResult) (budget : Int) (cfg : SocksConfig)
    (ready : RxReady p) (some : 0 < budget ∨ RxBalanced [] p) :
    RxBalanced [] (receiveDrain crypto machine dns results budget cfg p).2.2 := by
  induction results generalizing budget cfg p with
  | nil =>
    rw [receiveDrain]
    split_ifs with spent
    · exact some.resolve_left (by omega)
    · exact (ready.acquire rxVlen).releaseAll
  | cons result results ih =>
    rw [receiveDrain]
    split_ifs with spent
    · exact some.resolve_left (by omega)
    · have acquired := ready.acquire rxVlen
      generalize nsRxBufAcquire p rxVlen = got at acquired
      obtain ⟨bufs, p⟩ := got
      dsimp only at acquired ⊢
      split_ifs with none
      · rw [none] at acquired
        exact acquired.copyDrain _ _ _
      · cases result with
        | batch datagrams =>
          dsimp only
          by_cases empty : datagrams.take bufs.length = []
          · rw [if_pos empty]
            exact acquired.releaseAll
          · rw [if_neg empty]
            have fits : (datagrams.take bufs.length).length ≤ bufs.length :=
              List.length_take_le _ _
            have next : RxBalanced []
                (rxBatch crypto machine dns bufs (datagrams.take bufs.length) cfg _).2.2 :=
              acquired.batch _ cfg fits
            generalize rxBatch crypto machine dns bufs (datagrams.take bufs.length) cfg _ =
              after at next
            obtain ⟨stopped, cfg', p'⟩ := after
            cases stopped with
            | true => exact next
            | false =>
              dsimp only
              split_ifs
              · exact next
              · exact ih _ cfg' (.inr next) (.inr next)
        | _ => exact acquired.releaseAll

theorem RxReady.step (ready : RxReady p) (event : RxEvent) :
    RxReady (rxStep crypto machine dns p event) := by
  cases event with
  | receive results cfg => exact .inr (ready.drain results rxBudget cfg (.inl (by decide)))
  | lwipFrees slots =>
    rcases ready with ⟨fresh, empty⟩ | balanced
    · left
      refine ⟨fresh, ?_⟩
      rw [rxStep, nsRxSlotFree, empty]
      induction slots with
      | nil => rfl
      | cons slot slots ih => exact ih
    · exact .inr (balanced.slotFree slots)

theorem RxReady.run (ready : RxReady p) (events : List RxEvent) :
    RxReady (rxRun crypto machine dns p events) := by
  induction events generalizing p with
  | nil => exact ready
  | cons event events ih => exact ih (ready.step event)

end

/-- At every return of receive_vpn each slot is once on the free list or held by lwIP, and none was
released twice. -/
theorem receiveVpn_conserves (crypto : Crypto) (machine : Machine) (dns : List UInt8 → Bool)
    (before : List RxEvent) (results : List RecvResult) (cfg : SocksConfig) :
    let p := (receiveVpn crypto machine dns results cfg
      (rxRun crypto machine dns RxPool.start before)).2.2
    (p.slots.free ++ p.slots.held).Perm (List.finRange nsRxPool) ∧ p.slots.free.Nodup ∧
      (∀ slot ∈ p.slots.free, slot ∉ p.slots.held) ∧ p.slots.doubled = false := by
  have ready : RxReady (rxRun crypto machine dns RxPool.start before) :=
    RxReady.run (.inl ⟨rfl, rfl⟩) before
  have balanced : RxBalanced [] (receiveVpn crypto machine dns results cfg
      (rxRun crypto machine dns RxPool.start before)).2.2 :=
    ready.drain results rxBudget cfg (.inl (by decide))
  have each := balanced.2.each
  rw [List.nil_append] at each
  have nodup := each.nodup_iff.mpr slots_nodup
  exact ⟨each, nodup.of_append_left,
    fun slot free held => List.disjoint_of_nodup_append nodup free held, balanced.2.single⟩

end Iwan
