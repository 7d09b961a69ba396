import Iwan.Client.Addresses

/- The routes a client sets up and takes back (route_linux.c, proxy.c). -/
namespace Iwan

def pushUnique (out : List Text) (c : Text) : List Text := if c ∈ out then out else out ++ [c]

def routeBlank (c : UInt8) : Bool := c == 0x20 || c == 0x09 || c == 0x0D || c == 0x0A

/-- What stands behind the number that strtoul reads in base 0, if there is one. -/
def strtoulEnd (s : Text) : Option Text :=
  let s := s.dropWhile fun c => c = 0x20 ∨ 0x09 ≤ c ∧ c ≤ 0x0D
  let s := if s.head? = some 0x2B ∨ s.head? = some 0x2D then s.tail else s
  match s with
  | [] => none
  | c :: rest =>
    if c = 0x30 then
      let hex := rest.tail.takeWhile fun c => (hexNibble c).isSome
      if (rest.head? = some 0x78 ∨ rest.head? = some 0x58) ∧ hex ≠ [] then
        some (rest.drop (1 + hex.length))
      else some (rest.dropWhile fun c => 0x30 ≤ c ∧ c ≤ 0x37)
    else if Decimal.digit c then some (rest.dropWhile Decimal.digit)
    else none

/-- One to four numbers between dots, in any base that strtoul reads (the forms of inet_aton).
A number never reaches over a dot, so the loop is over the parts. -/
def numericV4Spelling (s : Text) : Bool :=
  let parts := s.splitOn 0x2E
  parts.all (fun q => strtoulEnd q = some []) ∧ parts.length ≤ 4

/-- The targets of the first family; `resolve` has the IPv4 addresses that getaddrinfo finds. -/
def expandRouteTargets (resolve : Text → Option (List Ip4)) :
    List Text → List Text → Option (List Text)
  | [], out => some out
  | raw :: rest, out =>
    let p := (raw.dropWhile routeBlank).rdropWhile routeBlank
    if p = [] then expandRouteTargets resolve rest out
    else if p = ascii "default" then expandRouteTargets resolve rest (pushUnique out p)
    else if 0x2F ∈ p then
      match cidrParse p with
      | none => none
      | some _ => expandRouteTargets resolve rest (pushUnique out p)
    else
      match s2ip4 p with
      | some _ => expandRouteTargets resolve rest (pushUnique out (p ++ ascii "/32"))
      | none =>
        if numericV4Spelling p then none
        else
          match resolve p with
          | none | some [] => none
          | some ips =>
            expandRouteTargets resolve rest
              (ips.foldl (fun out ip => pushUnique out (ipToString ip ++ ascii "/32")) out)

/-- A route of the main table. -/
structure Route where
  dst : Cidr
  metric : Nat
  gw : Option Text
  dev : Text
deriving DecidableEq, Repr

def Route.key (r : Route) : Cidr × Nat := (r.dst, r.metric)

abbrev RouteTable := List Route

def RouteTable.Distinct (t : RouteTable) : Prop := (t.map Route.key).Nodup

def RouteTable.replace (t : RouteTable) (r : Route) : RouteTable :=
  r :: t.filter fun r' => r'.key ≠ r.key

def lowestMetric : List Route → Option Route
  | [] => none
  | r :: rest =>
    match lowestMetric rest with
    | none => some r
    | some r' => if r'.metric < r.metric then some r' else some r

def RouteTable.del (t : RouteTable) (picks : Route → Bool) : Option RouteTable :=
  (lowestMetric (t.filter picks)).map fun r => t.filter fun r' => r'.key ≠ r.key

/-- The first route with a gateway, by their metrics. -/
def captureDefault (t : RouteTable) : Option Route :=
  lowestMetric (t.filter fun r => r.dst = Cidr.default ∧ r.gw.isSome)

/-- The arguments of routes_setup and routes_teardown. -/
structure RouteArgs where
  tun : Text
  srv : Text
  ogw : Text
  odev : Text
  metric : Option Nat
  targets : List Text

/-- The kernel's table, and the two flags that the teardown reads. -/
structure RouteState where
  table : RouteTable
  defaultInstalled : Bool
  pinInstalled : Bool
deriving DecidableEq, Repr

/-- What setup's commands and local_subnet give at the target with each index. -/
structure SetupEnv where
  ifaceUp : Bool
  pinOk : Bool
  subnet : Nat → Option Cidr
  subnetOk : Nat → Bool
  ok : Nat → Bool

section

variable (a : RouteArgs)

def RouteArgs.pinDst : Option Cidr :=
  (s2ip4 a.srv).bind fun ip => if ip.b0 = 127 then none else some ⟨ip4U32 ip, 32⟩

def RouteArgs.tunRoute (dst : Cidr) : Route := ⟨dst, 0, none, a.tun⟩

def RouteArgs.subnetRoute (loc : Cidr) : Route := ⟨loc, 0, none, a.odev⟩

def RouteArgs.pinRoute (dst : Cidr) : Route := ⟨dst, 0, some a.ogw, a.odev⟩

def RouteArgs.physDefault : Route := ⟨Cidr.default, a.metric.getD 0, some a.ogw, a.odev⟩

def teardownTarget (s : RouteState) (c : Text) : RouteState :=
  if isDefaultV4 c then
    if !s.defaultInstalled then s
    else
      let s := { s with defaultInstalled := false }
      match s.table.del fun r => r.dst = Cidr.default ∧ r.dev = a.tun with
      | none => s
      | some t => { s with table := t.replace a.physDefault }
  else
    match canonV4Cidr c with
    | none => s
    | some dst =>
      { s with table := (s.table.del fun r => r.dst = dst ∧ r.dev = a.tun).getD s.table }

def teardownPin (s : RouteState) : RouteState :=
  match a.pinDst with
  | none => s
  | some dst =>
    if !s.pinInstalled then s
    else
      let t := s.table.del fun r => r.dst = dst ∧ r.gw = some a.ogw ∧ r.dev = a.odev
      { s with table := t.getD s.table, pinInstalled := false }

def routeTeardown (s : RouteState) : RouteState :=
  teardownPin a (a.targets.foldl (teardownTarget a) s)

/-- The local subnet's own route, put in front of a default through the tunnel. -/
def preserveSubnet (env : SetupEnv) (i : Nat) (s : RouteState) : Option RouteState :=
  match env.subnet i with
  | none => some s
  | some loc =>
    if env.subnetOk i then some { s with table := s.table.replace (a.subnetRoute loc) } else none

/-- One round of route_setup's loop, and whether its commands succeeded. -/
def setupTarget (env : SetupEnv) (i : Nat) (c : Text) (s : RouteState) : RouteState × Bool :=
  if isDefaultV4 c then
    match preserveSubnet a env i s with
    | none => (s, false)
    | some s =>
      if env.ok i then
        ({ s with table := s.table.replace (a.tunRoute Cidr.default), defaultInstalled := true },
          true)
      else (s, false)
  else
    match canonV4Cidr c with
    | none => (s, false)
    | some dst =>
      if env.ok i then ({ s with table := s.table.replace (a.tunRoute dst) }, true)
      else (s, false)

def setupTargets (env : SetupEnv) : Nat → List Text → RouteState → RouteState × Bool
  | _, [], s => (s, true)
  | i, c :: rest, s =>
    match setupTarget a env i c s with
    | (s, true) => setupTargets env (i + 1) rest s
    | (s, false) => (s, false)

def routeSetup (env : SetupEnv) (t : RouteTable) : RouteState × Bool :=
  let s : RouteState := ⟨t, false, false⟩
  if !env.ifaceUp then (s, false)
  else
    let pinned : Option RouteState :=
      match a.pinDst with
      | none => some s
      | some dst =>
        if env.pinOk then
          some { s with table := s.table.replace (a.pinRoute dst), pinInstalled := true }
        else none
    match pinned with
    | none => (s, false)
    | some s =>
      match setupTargets a env 0 a.targets s with
      | (s, true) => (s, true)
      | (s, false) => (routeTeardown a s, false)

end

section

variable {t t' : RouteTable} {picks : Route → Bool}

theorem RouteTable.mem_replace (t : RouteTable) (r r' : Route) :
    r' ∈ t.replace r ↔ r' = r ∨ r' ∈ t ∧ r'.key ≠ r.key := by
  unfold RouteTable.replace
  rw [List.mem_cons, List.mem_filter, decide_eq_true_iff]

theorem RouteTable.Distinct.filter (distinct : t.Distinct) (keep : Route → Bool) :
    RouteTable.Distinct (t.filter keep) :=
  List.Nodup.sublist (List.filter_sublist.map _) distinct

theorem RouteTable.Distinct.replace (distinct : t.Distinct) (r : Route) :
    (t.replace r).Distinct := by
  unfold RouteTable.replace RouteTable.Distinct
  rw [List.map_cons, List.nodup_cons]
  refine ⟨fun member => ?_, distinct.filter _⟩
  obtain ⟨r', kept, same⟩ := List.mem_map.mp member
  exact of_decide_eq_true (List.mem_filter.mp kept).2 same

theorem RouteTable.Distinct.eq_of_key (distinct : t.Distinct) {r r' : Route} (here : r ∈ t)
    (here' : r' ∈ t) (same : r.key = r'.key) : r = r' :=
  List.inj_on_of_nodup_map distinct here here' same

theorem lowestMetric_none {routes : List Route} (absent : lowestMetric routes = none) :
    routes = [] := by
  cases routes with
  | nil => rfl
  | cons r rest =>
    unfold lowestMetric at absent
    cases found : lowestMetric rest with
    | none =>
      rw [found] at absent
      cases absent
    | some r' =>
      rw [found] at absent
      dsimp only at absent
      split at absent <;> cases absent

theorem lowestMetric_some {routes : List Route} {r : Route} (found : lowestMetric routes = some r) :
    r ∈ routes ∧ ∀ r' ∈ routes, r.metric ≤ r'.metric := by
  induction routes generalizing r with
  | nil => cases found
  | cons first rest ih =>
    unfold lowestMetric at found
    cases later : lowestMetric rest with
    | none =>
      rw [later] at found
      obtain rfl := Option.some.inj found
      rw [lowestMetric_none later]
      exact ⟨List.mem_cons_self, fun r' member => by rw [List.mem_singleton.mp member]⟩
    | some low =>
      rw [later] at found
      obtain ⟨member, least⟩ := ih later
      dsimp only at found
      split at found
      · rename_i below
        obtain rfl := Option.some.inj found
        refine ⟨List.mem_cons_of_mem _ member, fun r' member' => ?_⟩
        rcases List.mem_cons.mp member' with rfl | inside
        · exact Nat.le_of_lt below
        · exact least r' inside
      · rename_i above
        obtain rfl := Option.some.inj found
        refine ⟨List.mem_cons_self, fun r' member' => ?_⟩
        rcases List.mem_cons.mp member' with rfl | inside
        · exact Nat.le_refl _
        · exact Nat.le_trans (Nat.not_lt.mp above) (least r' inside)

theorem RouteTable.del_none (absent : t.del picks = none) : ∀ r ∈ t, picks r = false := by
  have empty := lowestMetric_none (Option.map_eq_none_iff.mp absent)
  intro r member
  exact Bool.eq_false_iff.mpr (List.filter_eq_nil_iff.mp empty r member)

theorem RouteTable.del_some (distinct : t.Distinct) (deleted : t.del picks = some t') :
    t'.Distinct ∧ ∃ r ∈ t, picks r = true ∧
      (∀ r' ∈ t, picks r' = true → r.metric ≤ r'.metric) ∧ ∀ r', r' ∈ t' ↔ r' ∈ t ∧ r' ≠ r := by
  obtain ⟨r, low, rfl⟩ := Option.map_eq_some_iff.mp deleted
  obtain ⟨member, least⟩ := lowestMetric_some low
  obtain ⟨here, picked⟩ := List.mem_filter.mp member
  refine ⟨distinct.filter _, r, here, picked, ?_, ?_⟩
  · exact fun r' here' picked' => least r' (List.mem_filter.mpr ⟨here', picked'⟩)
  · intro r'
    rw [List.mem_filter, decide_eq_true_iff]
    constructor
    · rintro ⟨here', apart⟩
      exact ⟨here', fun same => apart (same ▸ rfl)⟩
    · rintro ⟨here', apart⟩
      exact ⟨here', fun same => apart (distinct.eq_of_key here' here same)⟩

theorem RouteTable.mem_replace_self (distinct : t.Distinct) {r : Route} (here : r ∈ t)
    (r' : Route) : r' ∈ t.replace r ↔ r' ∈ t := by
  rw [RouteTable.mem_replace]
  constructor
  · rintro (rfl | ⟨here', _⟩)
    · exact here
    · exact here'
  · intro here'
    by_cases same : r'.key = r.key
    · exact .inl (distinct.eq_of_key here' here same)
    · exact .inr ⟨here', same⟩

end

def targetDst (c : Text) : Option Cidr :=
  if isDefaultV4 c then some Cidr.default else canonV4Cidr c

/-- The table at the start: no two alike, one default captured, nothing in the tunnel's way. -/
structure RoutePlan (a : RouteArgs) (init : RouteTable) (cap : Route) : Prop where
  distinct : init.Distinct
  captured : captureDefault init = some cap
  gw : cap.gw = some a.ogw
  dev : cap.dev = a.odev
  metric : cap.metric = a.metric.getD 0
  quiet : ∀ r ∈ init, r.dev ≠ a.tun
  free : ∀ r ∈ init, r ≠ cap → r.metric = 0 →
    (∀ c ∈ a.targets, targetDst c ≠ some r.dst) ∧ a.pinDst ≠ some r.dst

/-- Each default through the tunnel is taken back. A default in another spelling replaces a captured
one that has no metric, and only a plain default target in front of it makes the teardown restore
it; a subnet that setup has to add is never deleted. -/
structure DefaultsFit (a : RouteArgs) (subnet : Nat → Option Cidr) (init : RouteTable)
    (cap : Route) : Prop where
  spelled : cap.metric = 0 → ∀ front c back, a.targets = front ++ c :: back →
    canonV4Cidr c = some Cidr.default → isDefaultV4 c = false → ∃ d ∈ front, isDefaultV4 d = true
  subnets : ∀ i c loc, a.targets[i]? = some c → isDefaultV4 c = true → subnet i = some loc →
    a.subnetRoute loc ∈ init

/-- Where the server's own route is a target too, no initial route is like the one that pins it. -/
structure RouteFits (a : RouteArgs) (subnet : Nat → Option Cidr) (init : RouteTable)
    (cap : Route) : Prop extends DefaultsFit a subnet init cap where
  pinned : ∀ c ∈ a.targets, ∀ dst, targetDst c = some dst → a.pinDst = some dst →
    ∀ r ∈ init, r.dst = dst → r.gw = some a.ogw → r.dev ≠ a.odev

section

variable {a : RouteArgs} {env : SetupEnv} {init t : RouteTable} {cap : Route} {gone pinned : Prop}

theorem RoutePlan.cap_mem (plan : RoutePlan a init cap) : cap ∈ init ∧ cap.dst = Cidr.default := by
  obtain ⟨member, _⟩ := lowestMetric_some plan.captured
  obtain ⟨here, picked⟩ := List.mem_filter.mp member
  exact ⟨here, (of_decide_eq_true picked).1⟩

theorem RoutePlan.odev_ne (plan : RoutePlan a init cap) : a.odev ≠ a.tun := by
  rw [← plan.dev]
  exact plan.quiet cap plan.cap_mem.1

theorem RoutePlan.cap_eq (plan : RoutePlan a init cap) : cap = a.physDefault := by
  obtain ⟨dst, metric, gw, dev⟩ := cap
  have place := plan.cap_mem.2
  have metric' := plan.metric
  have gw' := plan.gw
  have dev' := plan.dev
  dsimp only at place metric' gw' dev'
  rw [place, metric', gw', dev']
  rfl

variable {dst : Cidr}

theorem RouteArgs.pinDst_plen (pin : a.pinDst = some dst) : dst.plen = 32 := by
  obtain ⟨ip, _, host⟩ := Option.bind_eq_some_iff.mp pin
  split at host
  · cases host
  · rw [← Option.some.inj host]

/-- `gone` when the captured default was replaced, `pinned` when the server's route stands. -/
structure RouteHolds (a : RouteArgs) (init : RouteTable) (cap : Route) (t : RouteTable)
    (gone pinned : Prop) : Prop where
  distinct : t.Distinct
  others : ∀ r : Route, r.dev ≠ a.tun → (r ∈ t ↔ (r ∈ init ∧ ¬ (gone ∧ r = cap)) ∨
    (pinned ∧ ∃ dst, a.pinDst = some dst ∧ r = a.pinRoute dst))
  replaced : gone → cap.metric = 0 ∧ a.tunRoute Cidr.default ∈ t

theorem RouteHolds.start (plan : RoutePlan a init cap) (unpinned : a.pinDst = none) :
    RouteHolds a init cap init False True := by
  refine ⟨plan.distinct, fun r _ => ?_, False.elim⟩
  simp [unpinned]

theorem RouteHolds.toTun (plan : RoutePlan a init cap) (holds : RouteHolds a init cap t gone pinned)
    {c : Text} (target : c ∈ a.targets) (place : targetDst c = some dst) :
    RouteHolds a init cap (t.replace (a.tunRoute dst))
      (gone ∨ (dst = Cidr.default ∧ cap.metric = 0)) (pinned ∧ a.pinDst ≠ some dst) := by
  refine ⟨holds.distinct.replace _, fun r apart => ?_, ?_⟩
  · have other : r ≠ a.tunRoute dst := fun same => apart (same ▸ rfl)
    rw [RouteTable.mem_replace, or_iff_right other, holds.others r apart]
    constructor
    · rintro ⟨⟨here, kept⟩ | ⟨stands, k, pin, rfl⟩, key⟩
      · refine .inl ⟨here, ?_⟩
        rintro ⟨was | ⟨atDefault, zero⟩, rfl⟩
        · exact kept ⟨was, rfl⟩
        · apply key
          change (r.dst, r.metric) = (dst, 0)
          rw [plan.cap_mem.2, atDefault, zero]
      · refine .inr ⟨⟨stands, ?_⟩, k, pin, rfl⟩
        rintro same
        apply key
        change (k, 0) = (dst, 0)
        rw [Option.some.inj (pin.symm.trans same)]
    · rintro (⟨here, kept⟩ | ⟨⟨stands, unlike⟩, k, pin, rfl⟩)
      · refine ⟨Or.inl ⟨here, fun was => kept ⟨Or.inl was.1, was.2⟩⟩, fun key => ?_⟩
        have place' : r.dst = dst := congrArg Prod.fst key
        have zero : r.metric = 0 := congrArg Prod.snd key
        by_cases same : r = cap
        · refine kept ⟨Or.inr ⟨?_, same ▸ zero⟩, same⟩
          rw [← place', same]
          exact plan.cap_mem.2
        · exact (plan.free r here same zero).1 c target (place' ▸ place)
      · refine ⟨Or.inr ⟨stands, k, pin, rfl⟩, fun key => unlike ?_⟩
        rw [pin]
        exact congrArg some (congrArg Prod.fst key)
  · rintro (was | ⟨rfl, zero⟩)
    · obtain ⟨zero, here⟩ := holds.replaced was
      refine ⟨zero, ?_⟩
      rw [RouteTable.mem_replace]
      by_cases same : dst = Cidr.default
      · exact .inl (by rw [same])
      · exact .inr ⟨here, fun key => same (congrArg Prod.fst key).symm⟩
    · exact ⟨zero, (RouteTable.mem_replace ..).mpr (Or.inl rfl)⟩

theorem RouteHolds.subnet (plan : RoutePlan a init cap)
    (holds : RouteHolds a init cap t gone pinned) {loc : Cidr} (here : a.subnetRoute loc ∈ init) :
    RouteHolds a init cap (t.replace (a.subnetRoute loc)) gone pinned := by
  have unlike : a.subnetRoute loc ≠ cap := by
    intro same
    have gw := plan.gw
    rw [← same] at gw
    cases gw
  have here' : a.subnetRoute loc ∈ t :=
    (holds.others _ plan.odev_ne).mpr (Or.inl ⟨here, fun was => unlike was.2⟩)
  have same := RouteTable.mem_replace_self holds.distinct here'
  refine ⟨holds.distinct.replace _, fun r apart => (same r).trans (holds.others r apart), ?_⟩
  exact fun was => ⟨(holds.replaced was).1, (same _).mpr (holds.replaced was).2⟩

theorem RouteHolds.pin (plan : RoutePlan a init cap) {dst : Cidr} (pin : a.pinDst = some dst) :
    RouteHolds a init cap (init.replace (a.pinRoute dst)) False True := by
  refine ⟨plan.distinct.replace _, fun r apart => ?_, False.elim⟩
  rw [RouteTable.mem_replace]
  constructor
  · rintro (rfl | ⟨here, _⟩)
    · exact .inr ⟨trivial, dst, pin, rfl⟩
    · exact .inl ⟨here, fun was => was.1⟩
  · rintro (⟨here, _⟩ | ⟨_, k, pin', rfl⟩)
    · refine .inr ⟨here, fun key => ?_⟩
      have place : r.dst = dst := congrArg Prod.fst key
      have zero : r.metric = 0 := congrArg Prod.snd key
      by_cases same : r = cap
      · have plen := RouteArgs.pinDst_plen pin
        rw [← place, same, plan.cap_mem.2] at plen
        cases plen
      · exact (plan.free r here same zero).2 (place ▸ pin)
    · rw [Option.some.inj (pin'.symm.trans pin)]
      exact .inl rfl

theorem RouteHolds.delTun (holds : RouteHolds a init cap t gone pinned)
    (keeps : gone → dst ≠ Cidr.default) :
    RouteHolds a init cap ((t.del fun r => r.dst = dst ∧ r.dev = a.tun).getD t) gone pinned := by
  cases deleted : t.del fun r => r.dst = dst ∧ r.dev = a.tun with
  | none => exact holds
  | some t' =>
    obtain ⟨distinct, r, _, picked, _, members⟩ := RouteTable.del_some holds.distinct deleted
    obtain ⟨place, device⟩ := of_decide_eq_true picked
    refine ⟨distinct, fun r' apart => ?_, fun was => ⟨(holds.replaced was).1, ?_⟩⟩
    · have unlike : r' ≠ r := fun same => apart (same ▸ device)
      exact ((members r').trans (and_iff_left unlike)).trans (holds.others r' apart)
    · refine (members _).mpr ⟨(holds.replaced was).2, fun same => keeps was ?_⟩
      rw [← place, ← same]
      rfl

theorem RouteHolds.restore (plan : RoutePlan a init cap)
    (holds : RouteHolds a init cap t gone pinned)
    {t' : RouteTable} (deleted : (t.del fun r => r.dst = Cidr.default ∧ r.dev = a.tun) = some t') :
    RouteHolds a init cap (t'.replace a.physDefault) False pinned := by
  obtain ⟨distinct, r, _, picked, _, members⟩ := RouteTable.del_some holds.distinct deleted
  obtain ⟨_, device⟩ := of_decide_eq_true picked
  refine ⟨distinct.replace _, fun r' apart => ?_, False.elim⟩
  have unlike : r' ≠ r := fun same => apart (same ▸ device)
  rw [RouteTable.mem_replace, members r', and_iff_left unlike, holds.others r' apart,
    ← plan.cap_eq]
  constructor
  · rintro (rfl | ⟨⟨here, _⟩ | pin, _⟩)
    · exact .inl ⟨plan.cap_mem.1, fun was => was.1⟩
    · exact .inl ⟨here, fun was => was.1⟩
    · exact .inr pin
  · rintro (⟨here, _⟩ | ⟨stands, k, pin, rfl⟩)
    · by_cases same : r' = cap
      · exact .inl same
      · exact .inr ⟨Or.inl ⟨here, fun was => same was.2⟩, fun key =>
          same (plan.distinct.eq_of_key here plan.cap_mem.1 key)⟩
    · refine .inr ⟨Or.inr ⟨stands, k, pin, rfl⟩, fun key => ?_⟩
      have plen := RouteArgs.pinDst_plen pin
      have place : k = cap.dst := congrArg Prod.fst key
      rw [place, plan.cap_mem.2] at plen
      cases plen

/-- What a session has made of the table, with its flags. -/
structure RouteSession (a : RouteArgs) (init : RouteTable) (cap : Route) (s : RouteState)
    (gone pinned : Prop) : Prop where
  holds : RouteHolds a init cap s.table gone pinned
  default : gone → s.defaultInstalled = true ∧ ∃ c ∈ a.targets, isDefaultV4 c = true
  flag : s.pinInstalled = a.pinDst.isSome
  lost : a.pinDst.isSome = true → ¬ pinned → ∃ c ∈ a.targets, targetDst c = a.pinDst

variable {s : RouteState} {subnet : Nat → Option Cidr} {done rest : List Text} {c : Text}

theorem teardownTarget_session (plan : RoutePlan a init cap) (fits : DefaultsFit a subnet init cap)
    (session : RouteSession a init cap s gone pinned) (whole : a.targets = done ++ c :: rest)
    (clean : gone → ∀ d ∈ done, isDefaultV4 d = false) :
    ∃ gone' : Prop, RouteSession a init cap (teardownTarget a s c) gone' pinned ∧
      (gone' → ∀ d ∈ done ++ [c], isDefaultV4 d = false) := by
  unfold teardownTarget
  cases spelled : isDefaultV4 c with
  | true =>
    rw [if_pos rfl]
    cases flag : s.defaultInstalled with
    | false =>
      have stays : gone = False := eq_false fun was => by
        rw [(session.default was).1] at flag
        cases flag
      subst stays
      exact ⟨False, session, False.elim⟩
    | true =>
      dsimp only
      rw [Bool.not_true, if_neg Bool.false_ne_true]
      cases deleted : s.table.del fun r => r.dst = Cidr.default ∧ r.dev = a.tun with
      | none =>
        have stays : gone = False := eq_false fun was => by
          have absent := RouteTable.del_none deleted _ (session.holds.replaced was).2
          exact of_decide_eq_false absent ⟨rfl, rfl⟩
        subst stays
        exact ⟨False, ⟨session.holds, False.elim, session.flag, session.lost⟩, False.elim⟩
      | some t' =>
        exact ⟨False, ⟨session.holds.restore plan deleted, False.elim, session.flag,
          session.lost⟩, False.elim⟩
  | false =>
    have clean' (was : gone) : ∀ d ∈ done ++ [c], isDefaultV4 d = false := by
      intro d member
      rcases List.mem_append.mp member with before | last
      · exact clean was d before
      · rw [List.mem_singleton.mp last, spelled]
    rw [if_neg Bool.false_ne_true]
    cases place : canonV4Cidr c with
    | none => exact ⟨gone, session, clean'⟩
    | some dst =>
      -- a plain default in front would have restored the captured one already
      have keeps : gone → dst ≠ Cidr.default := by
        rintro was rfl
        obtain ⟨d, front, plain⟩ :=
          fits.spelled (session.holds.replaced was).1 done c rest whole place spelled
        rw [clean was d front] at plain
        cases plain
      exact ⟨gone, ⟨session.holds.delTun keeps, session.default, session.flag, session.lost⟩,
        clean'⟩

theorem teardownTargets_session (plan : RoutePlan a init cap)
    (fits : DefaultsFit a subnet init cap) (session : RouteSession a init cap s gone pinned)
    (whole : a.targets = done ++ rest) (clean : gone → ∀ d ∈ done, isDefaultV4 d = false) :
    RouteSession a init cap (rest.foldl (teardownTarget a) s) False pinned := by
  induction rest generalizing s gone done with
  | nil =>
    have restored : gone = False := eq_false fun was => by
      obtain ⟨_, c, target, spelled⟩ := session.default was
      rw [whole, List.append_nil] at target
      rw [clean was c target] at spelled
      cases spelled
    subst restored
    exact session
  | cons c rest ih =>
    obtain ⟨_, session', clean'⟩ := teardownTarget_session plan fits session whole clean
    exact ih session' (by rw [whole, List.append_assoc]; rfl) clean'

theorem RouteArgs.pinRoute_fresh (plan : RoutePlan a init cap)
    (pin : a.pinDst = some dst) : a.pinRoute dst ∉ init := by
  intro here
  have unlike : a.pinRoute dst ≠ cap := by
    intro same
    have plen := RouteArgs.pinDst_plen pin
    have place : dst = cap.dst := congrArg Route.dst same
    rw [place, plan.cap_mem.2] at plen
    cases plen
  exact (plan.free _ here unlike rfl).2 pin

/-- The last deletion takes the pin back if that still stands, else an initial route like it. -/
theorem teardownPin_session (plan : RoutePlan a init cap)
    (session : RouteSession a init cap s False pinned) :
    (∀ r : Route, r.dev ≠ a.tun → (r ∈ (teardownPin a s).table ↔ r ∈ init)) ↔
      pinned ∨ ∀ dst, a.pinDst = some dst →
        ∀ r ∈ init, r.dst = dst → r.gw = some a.ogw → r.dev ≠ a.odev := by
  have others (r : Route) (apart : r.dev ≠ a.tun) := session.holds.others r apart
  simp only [false_and, not_false_eq_true, and_true] at others
  have flag := session.flag
  unfold teardownPin
  cases pin : a.pinDst with
  | none =>
    refine iff_of_true (fun r apart => ?_) (.inr fun _ none => by cases none)
    rw [others r apart, or_iff_left]
    rintro ⟨_, dst, pin', _⟩
    cases pin.symm.trans pin'
  | some dst =>
    rw [pin, Option.isSome_some] at flag
    dsimp only
    rw [flag, Bool.not_true, if_neg Bool.false_ne_true]
    dsimp only
    cases deleted : s.table.del fun r => r.dst = dst ∧ r.gw = some a.ogw ∧ r.dev = a.odev with
    | none =>
      have absent := RouteTable.del_none deleted
      have unpinned : ¬ pinned := fun stands => by
        have here := (others _ plan.odev_ne).mpr (Or.inr ⟨stands, dst, pin, rfl⟩)
        exact of_decide_eq_false (absent _ here) ⟨rfl, rfl, rfl⟩
      refine iff_of_true (fun r apart => ?_) (.inr ?_)
      · exact (others r apart).trans (or_iff_left fun stands => unpinned stands.1)
      · rintro k same r here place gw device
        cases same
        have here' := (others r (device ▸ plan.odev_ne)).mpr (Or.inl here)
        exact of_decide_eq_false (absent r here') ⟨place, gw, device⟩
    | some t' =>
      obtain ⟨_, r', here', picked, least, members⟩ :=
        RouteTable.del_some session.holds.distinct deleted
      obtain ⟨place, gw, device⟩ := of_decide_eq_true picked
      have apart' : r'.dev ≠ a.tun := device ▸ plan.odev_ne
      rw [Option.getD_some]
      by_cases stands : pinned
      · have here := (others _ plan.odev_ne).mpr (Or.inr ⟨stands, dst, pin, rfl⟩)
        have low : r'.metric ≤ 0 := least _ here (decide_eq_true ⟨rfl, rfl, rfl⟩)
        have key : r'.key = (a.pinRoute dst).key := by
          change (r'.dst, r'.metric) = (dst, 0)
          rw [place, Nat.le_zero.mp low]
        obtain rfl := session.holds.distinct.eq_of_key here' here key
        refine iff_of_true (fun r apart => ?_) (.inl stands)
        rw [members r, others r apart]
        constructor
        · rintro ⟨here | ⟨_, k, pin', rfl⟩, unlike⟩
          · exact here
          · rw [Option.some.inj (pin'.symm.trans pin)] at unlike
            exact absurd rfl unlike
        · exact fun here =>
            ⟨Or.inl here, fun same => RouteArgs.pinRoute_fresh plan pin (same ▸ here)⟩
      · have old : r' ∈ init :=
          ((others r' apart').mp here').resolve_right fun now => stands now.1
        refine iff_of_false (fun same => ?_) ?_
        · exact ((members r').mp ((same r' apart').mpr old)).2 rfl
        · rintro (now | unlike)
          · exact stands now
          · exact unlike dst rfl r' old place gw device

/-- What one round of the setup can do: put the subnet's route first, then fail or go on. -/
theorem setupTarget_cases (a : RouteArgs) (env : SetupEnv) (i : Nat) (c : Text) (s : RouteState) :
    ∃ s₁ : RouteState, (s₁ = s ∨ ∃ loc, isDefaultV4 c = true ∧ env.subnet i = some loc ∧
        s₁ = { s with table := s.table.replace (a.subnetRoute loc) }) ∧
      (setupTarget a env i c s = (s₁, false) ∨ ∃ dst, targetDst c = some dst ∧
        setupTarget a env i c s =
          ({ s₁ with
              table := s₁.table.replace (a.tunRoute dst)
              defaultInstalled := s₁.defaultInstalled || isDefaultV4 c }, true)) := by
  unfold setupTarget targetDst preserveSubnet
  cases isDefaultV4 c with
  | true =>
    cases subnet : env.subnet i with
    | none =>
      refine ⟨s, .inl rfl, ?_⟩
      cases env.ok i <;> simp
    | some loc =>
      cases env.subnetOk i with
      | false => exact ⟨s, .inl rfl, .inl rfl⟩
      | true =>
        refine ⟨_, .inr ⟨loc, rfl, rfl, rfl⟩, ?_⟩
        cases env.ok i <;> simp
  | false =>
    refine ⟨s, .inl rfl, ?_⟩
    cases canonV4Cidr c with
    | none => exact .inl rfl
    | some dst => cases env.ok i <;> simp

theorem setupTargets_cons (a : RouteArgs) (env : SetupEnv) (i : Nat) (c : Text) (rest : List Text)
    (s : RouteState) : setupTargets a env i (c :: rest) s =
      if (setupTarget a env i c s).2 then
        setupTargets a env (i + 1) rest (setupTarget a env i c s).1
      else setupTarget a env i c s := by
  rw [setupTargets]
  rcases setupTarget a env i c s with ⟨s₁, _ | _⟩ <;> rfl

theorem setupTarget_session (plan : RoutePlan a init cap)
    (fits : DefaultsFit a env.subnet init cap) (session : RouteSession a init cap s gone pinned)
    (whole : a.targets = done ++ c :: rest)
    (seen : ∀ d ∈ done, isDefaultV4 d = true → s.defaultInstalled = true) :
    ∃ gone' pinned' : Prop,
      RouteSession a init cap (setupTarget a env done.length c s).1 gone' pinned' ∧
      ((setupTarget a env done.length c s).2 = true →
        (∀ d ∈ done ++ [c], isDefaultV4 d = true →
          (setupTarget a env done.length c s).1.defaultInstalled = true) ∧
        (pinned' → pinned ∧ targetDst c ≠ a.pinDst)) := by
  have target : c ∈ a.targets := by simp [whole]
  obtain ⟨s₁, first, second⟩ := setupTarget_cases a env done.length c s
  have session₁ : RouteSession a init cap s₁ gone pinned ∧
      s₁.defaultInstalled = s.defaultInstalled := by
    rcases first with rfl | ⟨loc, plain, subnet, rfl⟩
    · exact ⟨session, rfl⟩
    · have here := fits.subnets done.length c loc (by simp [whole]) plain subnet
      exact ⟨⟨session.holds.subnet plan here, session.default, session.flag, session.lost⟩, rfl⟩
  obtain ⟨session₁, same⟩ := session₁
  rcases second with failed | ⟨dst, place, went⟩
  · rw [failed]
    exact ⟨gone, pinned, session₁, fun went => absurd went Bool.false_ne_true⟩
  rw [went]
  refine ⟨_, _, ⟨session₁.holds.toTun plan target place, ?_, session₁.flag, ?_⟩, fun _ => ⟨?_, ?_⟩⟩
  · rintro (was | ⟨rfl, zero⟩)
    · obtain ⟨installed, plain⟩ := session₁.default was
      exact ⟨by rw [installed, Bool.true_or], plain⟩
    · cases plain : isDefaultV4 c with
      | true => exact ⟨Bool.or_true _, c, target, plain⟩
      | false =>
        have canon : canonV4Cidr c = some Cidr.default := by
          rwa [targetDst, plain, if_neg Bool.false_ne_true] at place
        obtain ⟨d, front, plain'⟩ := fits.spelled zero done c rest whole canon plain
        refine ⟨?_, d, by simp [whole, front], plain'⟩
        rw [same, seen d front plain', Bool.true_or]
  · intro pin left
    by_cases stands : pinned
    · exact ⟨c, target, place.trans (not_not.mp fun unlike => left ⟨stands, unlike⟩).symm⟩
    · exact session₁.lost pin stands
  · intro d member plain
    rcases List.mem_append.mp member with before | last
    · exact Bool.or_eq_true_iff.mpr (.inl (same.trans (seen d before plain)))
    · exact Bool.or_eq_true_iff.mpr (.inr (List.mem_singleton.mp last ▸ plain))
  · exact fun stands => ⟨stands.1, fun equal => stands.2 (equal.symm.trans place)⟩

theorem setupTargets_session (plan : RoutePlan a init cap)
    (fits : DefaultsFit a env.subnet init cap) (session : RouteSession a init cap s gone pinned)
    (whole : a.targets = done ++ rest)
    (seen : ∀ d ∈ done, isDefaultV4 d = true → s.defaultInstalled = true) :
    ∃ gone' pinned' : Prop,
      RouteSession a init cap (setupTargets a env done.length rest s).1 gone' pinned' ∧
      ((setupTargets a env done.length rest s).2 = true → pinned' →
        pinned ∧ ∀ c ∈ rest, targetDst c ≠ a.pinDst) := by
  induction rest generalizing s gone pinned done with
  | nil => exact ⟨gone, pinned, session, fun _ stands => ⟨stands, List.forall_mem_nil _⟩⟩
  | cons c rest ih =>
    obtain ⟨gone₁, pinned₁, session₁, went⟩ := setupTarget_session plan fits session whole seen
    rw [setupTargets_cons]
    split_ifs with ok
    · obtain ⟨seen₁, kept⟩ := went ok
      have whole₁ : a.targets = (done ++ [c]) ++ rest := by
        rw [whole, List.append_assoc]
        rfl
      obtain ⟨gone', pinned', session', apart⟩ := ih session₁ whole₁ seen₁
      rw [List.length_append] at session' apart
      refine ⟨gone', pinned', session', fun all stands => ?_⟩
      obtain ⟨stands₁, others⟩ := apart all stands
      obtain ⟨before, first⟩ := kept stands₁
      exact ⟨before, List.forall_mem_cons.mpr ⟨first, others⟩⟩
    · exact ⟨gone₁, pinned₁, session₁, fun went => absurd went ok⟩

end

/-- The state in which setup comes to its targets. -/
def RouteArgs.pinState (a : RouteArgs) (init : RouteTable) : RouteState :=
  match a.pinDst with
  | none => ⟨init, false, false⟩
  | some dst => ⟨init.replace (a.pinRoute dst), false, true⟩

/-- The table after a failed setup, or after the teardown. -/
def routesAfter (a : RouteArgs) (env : SetupEnv) (init : RouteTable) : RouteTable :=
  match routeSetup a env init with
  | (s, true) => (routeTeardown a s).table
  | (s, false) => s.table

/-- Whether setup succeeds or fails at a target, the teardown runs on what it did. -/
theorem routesAfter_eq (a : RouteArgs) (env : SetupEnv) (init : RouteTable) :
    routesAfter a env init =
      if env.ifaceUp = true ∧ (env.pinOk = true ∨ a.pinDst = none) then
        (routeTeardown a (setupTargets a env 0 a.targets (a.pinState init)).1).table
      else init := by
  have both (s : RouteState) : (match (match setupTargets a env 0 a.targets s with
      | (s, true) => (s, true)
      | (s, false) => (routeTeardown a s, false)) with
      | (s, true) => (routeTeardown a s).table
      | (s, false) => s.table) = (routeTeardown a (setupTargets a env 0 a.targets s).1).table := by
    rcases setupTargets a env 0 a.targets s with ⟨s', _ | _⟩ <;> rfl
  unfold routesAfter routeSetup RouteArgs.pinState
  cases env.ifaceUp with
  | false => rfl
  | true =>
    cases a.pinDst with
    | none => simp [both]
    | some dst => cases env.pinOk <;> simp [both]

section

variable {a : RouteArgs} {env : SetupEnv} {init : RouteTable} {cap : Route} {s : RouteState}
  {subnet : Nat → Option Cidr} {c : Text}

theorem RouteArgs.pinState_session (plan : RoutePlan a init cap) :
    RouteSession a init cap (a.pinState init) False True := by
  unfold RouteArgs.pinState
  cases pin : a.pinDst with
  | none =>
    exact ⟨.start plan pin, False.elim, by rw [pin]; rfl, fun _ left => absurd trivial left⟩
  | some dst =>
    exact ⟨.pin plan pin, False.elim, by rw [pin]; rfl, fun _ left => absurd trivial left⟩

/-- What the session comes to before the pin is taken back. -/
theorem setup_session (plan : RoutePlan a init cap) (fits : DefaultsFit a subnet init cap)
    (env : SetupEnv) (found : env.subnet = subnet) :
    ∃ pinned : Prop, RouteSession a init cap
        (a.targets.foldl (teardownTarget a) (setupTargets a env 0 a.targets (a.pinState init)).1)
        False pinned ∧
      ((setupTargets a env 0 a.targets (a.pinState init)).2 = true → pinned →
        ∀ c ∈ a.targets, targetDst c ≠ a.pinDst) := by
  subst found
  obtain ⟨_, pinned, session, apart⟩ := setupTargets_session plan fits
    (RouteArgs.pinState_session plan) (List.nil_append _).symm (List.forall_mem_nil _)
  refine ⟨pinned, ?_, fun all stands => (apart all stands).2⟩
  exact teardownTargets_session plan fits session (List.nil_append _).symm
    fun _ => List.forall_mem_nil _

theorem routesAfter_restored (plan : RoutePlan a init cap) (fits : RouteFits a env.subnet init cap)
    (r : Route) (apart : r.dev ≠ a.tun) : r ∈ routesAfter a env init ↔ r ∈ init := by
  rw [routesAfter_eq]
  split_ifs with goes
  · obtain ⟨pinned, session, -⟩ := setup_session plan fits.toDefaultsFit env rfl
    refine (teardownPin_session plan session).mpr ?_ r apart
    by_cases stands : pinned
    · exact .inl stands
    · refine .inr fun dst pin => ?_
      obtain ⟨c, target, same⟩ := session.lost (by rw [pin]; rfl) stands
      exact fits.pinned c target dst (same.trans pin) pin
  · exact Iff.rfl

theorem setupTargets_induct {P : RouteState → Prop} {targets : List Text}
    (step : ∀ j s, ∀ c ∈ targets, P s → P (setupTarget a env j c s).1) (i : Nat) (first : P s) :
    P (setupTargets a env i targets s).1 := by
  induction targets generalizing i s with
  | nil => exact first
  | cons c rest ih =>
    have here := step i s c List.mem_cons_self first
    rw [setupTargets_cons]
    split_ifs with ok
    · exact ih (fun j s d member => step j s d (List.mem_cons_of_mem _ member)) _ here
    · exact here

/-- A setup whose first `m` subnets and first `n` targets succeed, and no other. -/
def SetupEnv.upTo (subnet : Nat → Option Cidr) (m n : Nat) : SetupEnv :=
  ⟨true, true, subnet, fun i => i < m, fun i => i < n⟩

variable {m n : Nat}

theorem setupTarget_upTo (i : Nat) (below : i < m) (below' : i < n) (parsed : targetDst c ≠ none) :
    (setupTarget a (.upTo subnet m n) i c s).2 = true := by
  unfold targetDst at parsed
  cases plain : isDefaultV4 c with
  | true => cases here : subnet i <;> simp [setupTarget, preserveSubnet, SetupEnv.upTo, *]
  | false =>
    rw [plain, if_neg Bool.false_ne_true] at parsed
    obtain ⟨dst, canon⟩ := Option.ne_none_iff_exists'.mp parsed
    simp [setupTarget, SetupEnv.upTo, *]

theorem setupTargets_upTo (front rest : List Text) (i : Nat) (below : i + front.length ≤ m)
    (below' : i + front.length ≤ n) (parsed : ∀ c ∈ front, targetDst c ≠ none) :
    setupTargets a (.upTo subnet m n) i (front ++ rest) s =
      setupTargets a (.upTo subnet m n) (i + front.length) rest
        (setupTargets a (.upTo subnet m n) i front s).1 := by
  induction front generalizing i s with
  | nil => rfl
  | cons c front ih =>
    rw [List.length_cons] at below below' ⊢
    obtain ⟨first, others⟩ := List.forall_mem_cons.mp parsed
    have went : (setupTarget a (.upTo subnet m n) i c s).2 = true :=
      setupTarget_upTo i (by omega) (by omega) first
    rw [List.cons_append, setupTargets_cons, setupTargets_cons, if_pos went, if_pos went,
      ih (i + 1) (by omega) (by omega) others, Nat.add_right_comm, Nat.add_assoc]

/-- The tunnel's routes have no metric. -/
structure RouteSane (a : RouteArgs) (t : RouteTable) : Prop where
  distinct : t.Distinct
  tunnel : ∀ r ∈ t, r.dev = a.tun → r.metric = 0

variable {t : RouteTable} {r : Route}

theorem RouteSane.replace (sane : RouteSane a t) (zero : r.dev = a.tun → r.metric = 0) :
    RouteSane a (t.replace r) := by
  refine ⟨sane.distinct.replace r, fun r' member => ?_⟩
  rcases (RouteTable.mem_replace t r r').mp member with rfl | ⟨here, _⟩
  · exact zero
  · exact sane.tunnel r' here

theorem setupTargets_sane (plan : RoutePlan a init cap) (env : SetupEnv) (i : Nat)
    (targets : List Text) :
    RouteSane a (setupTargets a env i targets (a.pinState init)).1.table := by
  have outside {P : Prop} (on : a.odev = a.tun) : P := absurd on plan.odev_ne
  refine setupTargets_induct (P := fun s => RouteSane a s.table) (fun j s c _ sane => ?_) i ?_
  · obtain ⟨s₁, first, second⟩ := setupTarget_cases a env j c s
    have sane₁ : RouteSane a s₁.table := by
      rcases first with rfl | ⟨loc, _, _, rfl⟩
      · exact sane
      · exact sane.replace outside
    rcases second with failed | ⟨dst, _, went⟩
    · rw [failed]
      exact sane₁
    · rw [went]
      exact sane₁.replace fun _ => rfl
  · have sane : RouteSane a init :=
      ⟨plan.distinct, fun r here on => absurd on (plan.quiet r here)⟩
    unfold RouteArgs.pinState
    cases a.pinDst with
    | none => exact sane
    | some dst => exact sane.replace outside

/-- Only the tunnel's routes and the pin are ever deleted. -/
theorem teardownTarget_keeps (plan : RoutePlan a init cap) (sane : RouteSane a s.table)
    (here : r ∈ s.table) (apart : r.dev ≠ a.tun) (zero : r.metric = 0) :
    RouteSane a (teardownTarget a s c).table ∧ r ∈ (teardownTarget a s c).table := by
  have deletes {dst : Cidr} {t' : RouteTable}
      (deleted : (s.table.del fun r => r.dst = dst ∧ r.dev = a.tun) = some t') :
      RouteSane a t' ∧ r ∈ t' ∧ (r.dst = dst → False) := by
    obtain ⟨distinct, r', here', picked, _, members⟩ :=
      RouteTable.del_some sane.distinct deleted
    obtain ⟨place, device⟩ := of_decide_eq_true picked
    have unlike : r ≠ r' := fun same => apart (same ▸ device)
    refine ⟨⟨distinct, fun q member => sane.tunnel q ((members q).mp member).1⟩,
      (members r).mpr ⟨here, unlike⟩, fun same => ?_⟩
    refine unlike (sane.distinct.eq_of_key here here' ?_)
    rw [Route.key, Route.key, zero, sane.tunnel r' here' device, same, place]
  unfold teardownTarget
  cases isDefaultV4 c with
  | true =>
    rw [if_pos rfl]
    cases s.defaultInstalled with
    | false => exact ⟨sane, here⟩
    | true =>
      dsimp only
      rw [Bool.not_true, if_neg Bool.false_ne_true]
      cases deleted : s.table.del fun r => r.dst = Cidr.default ∧ r.dev = a.tun with
      | none => exact ⟨sane, here⟩
      | some t' =>
        obtain ⟨sane', here', unlike⟩ := deletes deleted
        refine ⟨sane'.replace fun on => absurd on plan.odev_ne, ?_⟩
        refine (RouteTable.mem_replace ..).mpr (.inr ⟨here', fun key => unlike ?_⟩)
        exact congrArg Prod.fst key
  | false =>
    rw [if_neg Bool.false_ne_true]
    cases canonV4Cidr c with
    | none => exact ⟨sane, here⟩
    | some dst =>
      dsimp only
      cases deleted : s.table.del fun r => r.dst = dst ∧ r.dev = a.tun with
      | none => exact ⟨sane, here⟩
      | some t' => exact ⟨(deletes deleted).1, (deletes deleted).2.1⟩

theorem routeTeardown_keeps (plan : RoutePlan a init cap) (sane : RouteSane a s.table)
    {loc : Cidr} (here : a.subnetRoute loc ∈ s.table) :
    a.subnetRoute loc ∈ (routeTeardown a s).table := by
  have kept (targets : List Text) : RouteSane a (targets.foldl (teardownTarget a) s).table ∧
      a.subnetRoute loc ∈ (targets.foldl (teardownTarget a) s).table := by
    induction targets generalizing s with
    | nil => exact ⟨sane, here⟩
    | cons c rest ih =>
      obtain ⟨sane', here'⟩ := teardownTarget_keeps (c := c) plan sane here plan.odev_ne rfl
      exact ih sane' here'
  obtain ⟨sane', here'⟩ := kept a.targets
  unfold routeTeardown teardownPin
  cases a.pinDst with
  | none => exact here'
  | some dst =>
    dsimp only
    split_ifs
    · exact here'
    · dsimp only
      cases deleted : RouteTable.del _ _ with
      | none => exact here'
      | some t' =>
        obtain ⟨_, r', _, picked, _, members⟩ := RouteTable.del_some sane'.distinct deleted
        refine (members _).mpr ⟨here', fun same => ?_⟩
        have gw := (of_decide_eq_true picked).2.1
        rw [← same] at gw
        cases gw

theorem RouteTable.del_subset {picks : Route → Bool} (here : r ∈ (t.del picks).getD t) : r ∈ t := by
  unfold RouteTable.del at here
  cases low : lowestMetric (t.filter picks) with
  | none => rwa [low] at here
  | some r' =>
    rw [low] at here
    exact (List.mem_filter.mp here).1

theorem teardownTargets_subset (targets : List Text) (flag : s.defaultInstalled = false)
    (here : r ∈ (targets.foldl (teardownTarget a) s).table) : r ∈ s.table := by
  induction targets generalizing s with
  | nil => exact here
  | cons c rest ih =>
    have step : (teardownTarget a s c).defaultInstalled = false ∧
        (r ∈ (teardownTarget a s c).table → r ∈ s.table) := by
      unfold teardownTarget
      split_ifs with plain installed
      · exact ⟨flag, id⟩
      · exact absurd (by rw [flag]; rfl) installed
      · cases canonV4Cidr c with
        | none => exact ⟨flag, id⟩
        | some dst => exact ⟨flag, RouteTable.del_subset⟩
    exact step.2 (ih step.1 here)

/-- A teardown that has no default to restore only deletes. -/
theorem routeTeardown_subset (flag : s.defaultInstalled = false)
    (here : r ∈ (routeTeardown a s).table) : r ∈ s.table := by
  apply teardownTargets_subset a.targets flag
  unfold routeTeardown teardownPin at here
  cases pin : a.pinDst with
  | none => rwa [pin] at here
  | some dst =>
    rw [pin] at here
    dsimp only at here
    split_ifs at here
    · exact here
    · exact RouteTable.del_subset here

theorem setupTargets_stop (i : Nat) (targets : List Text) (above : m ≤ i) (above' : n ≤ i) :
    (setupTargets a (.upTo subnet m n) i targets s).1 = s := by
  cases targets with
  | nil => rfl
  | cons c rest =>
    have stops : setupTarget a (.upTo subnet m n) i c s = (s, false) := by
      unfold setupTarget preserveSubnet
      cases isDefaultV4 c with
      | true => cases here : subnet i <;> simp [SetupEnv.upTo, here, Nat.not_lt.mpr, above, above']
      | false => cases canonV4Cidr c <;> simp [SetupEnv.upTo, Nat.not_lt.mpr above']
    rw [setupTargets_cons, stops]
    rfl

theorem routesAfter_upTo (a : RouteArgs) (subnet : Nat → Option Cidr) (m n : Nat)
    (init : RouteTable) : routesAfter a (.upTo subnet m n) init = (routeTeardown a
      (setupTargets a (.upTo subnet m n) 0 a.targets (a.pinState init)).1).table := by
  rw [routesAfter_eq, if_pos ⟨rfl, .inl rfl⟩]

/-- Setup stops behind the subnet's route that it has put in. -/
theorem subnets_of_restored (plan : RoutePlan a init cap)
    (parsed : ∀ c ∈ a.targets, targetDst c ≠ none)
    (restored : ∀ m n r, r.dev ≠ a.tun → (r ∈ routesAfter a (.upTo subnet m n) init ↔ r ∈ init))
    {i : Nat} {loc : Cidr} (target : a.targets[i]? = some c) (plain : isDefaultV4 c = true)
    (found : subnet i = some loc) : a.subnetRoute loc ∈ init := by
  obtain ⟨front, rest, whole, rfl⟩ : ∃ front rest, a.targets = front ++ c :: rest ∧
      front.length = i := by
    obtain ⟨low, at_⟩ := List.getElem?_eq_some_iff.mp target
    refine ⟨a.targets.take i, a.targets.drop (i + 1), ?_, by simp [low.le]⟩
    rw [← at_, List.cons_getElem_drop_succ, List.take_append_drop]
  refine (restored (front.length + 1) front.length _ plan.odev_ne).mp ?_
  rw [routesAfter_upTo]
  refine routeTeardown_keeps plan (setupTargets_sane plan _ 0 a.targets) ?_
  rw [whole, setupTargets_upTo front _ 0 (by omega) (by omega)
    fun d member => parsed d (by simp [whole, member]), setupTargets_cons]
  simp [setupTarget, preserveSubnet, SetupEnv.upTo, plain, found, RouteTable.mem_replace]

/-- Setup stops behind the default in another spelling. -/
theorem spelled_of_restored (plan : RoutePlan a init cap)
    (parsed : ∀ c ∈ a.targets, targetDst c ≠ none)
    (restored : ∀ m n r, r.dev ≠ a.tun → (r ∈ routesAfter a (.upTo subnet m n) init ↔ r ∈ init))
    (zero : cap.metric = 0) {front back : List Text} (whole : a.targets = front ++ c :: back)
    (canon : canonV4Cidr c = some Cidr.default) (plain : isDefaultV4 c = false) :
    ∃ d ∈ front, isDefaultV4 d = true := by
  by_contra none
  have others : ∀ d ∈ front ++ [c], isDefaultV4 d = false := by
    intro d member
    rcases List.mem_append.mp member with before | last
    · exact Bool.eq_false_iff.mpr fun plain' => none ⟨d, before, plain'⟩
    · rw [List.mem_singleton.mp last, plain]
  -- the loop runs over the default in its other spelling and stops there
  have here := (restored (front.length + 1) (front.length + 1) cap
    (plan.quiet cap plan.cap_mem.1)).mpr plan.cap_mem.1
  have read : ∀ d ∈ front ++ [c], targetDst d ≠ Option.none := fun d member =>
    parsed d (by rw [whole, List.append_cons]; exact List.mem_append_left _ member)
  rw [routesAfter_upTo, whole, List.append_cons, setupTargets_upTo _ _ 0 (by simp) (by simp) read,
    setupTargets_stop _ _ (by simp) (by simp)] at here
  have unset : (setupTargets a (.upTo subnet (front.length + 1) (front.length + 1)) 0
      (front ++ [c]) (a.pinState init)).1.defaultInstalled = false := by
    refine setupTargets_induct (P := fun s => s.defaultInstalled = false)
      (fun j s d member flag => ?_) 0 (by unfold RouteArgs.pinState; cases a.pinDst <;> rfl)
    obtain ⟨s₁, first, second⟩ := setupTarget_cases a _ j d s
    have same : s₁.defaultInstalled = false := by
      rcases first with rfl | ⟨loc, _, _, rfl⟩ <;> exact flag
    rcases second with failed | ⟨dst, _, went⟩
    · rw [failed]
      exact same
    · rw [went]
      exact Bool.or_eq_false_iff.mpr ⟨same, others d member⟩
  replace here := routeTeardown_subset unset here
  rw [setupTargets_upTo front [c] 0 (by omega) (by omega)
    fun d member => read d (List.mem_append_left _ member)] at here
  simp only [setupTargets, setupTarget, SetupEnv.upTo, plain, canon, Nat.zero_add, Nat.lt_succ_self,
    decide_true, if_true, Bool.false_eq_true, if_false, RouteTable.mem_replace] at here
  rcases here with same | ⟨_, key⟩
  · exact plan.quiet cap plan.cap_mem.1 (congrArg Route.dev same)
  · exact key (by rw [Route.key, Route.key, plan.cap_mem.2, zero]; rfl)

/-- Setup succeeds, and the target has taken the pin's place. -/
theorem pinned_of_restored (plan : RoutePlan a init cap) (fits : DefaultsFit a subnet init cap)
    (parsed : ∀ c ∈ a.targets, targetDst c ≠ none)
    (restored : ∀ m n r, r.dev ≠ a.tun → (r ∈ routesAfter a (.upTo subnet m n) init ↔ r ∈ init))
    {dst : Cidr} (target : c ∈ a.targets) (place : targetDst c = some dst)
    (pin : a.pinDst = some dst) :
    ∀ r ∈ init, r.dst = dst → r.gw = some a.ogw → r.dev ≠ a.odev := by
  have done := restored a.targets.length a.targets.length
  rw [routesAfter_upTo] at done
  obtain ⟨pinned, session, apart⟩ :=
    setup_session plan fits (.upTo subnet a.targets.length a.targets.length) rfl
  have all : (setupTargets a (.upTo subnet a.targets.length a.targets.length) 0 a.targets
      (a.pinState init)).2 = true := by
    rw [← List.append_nil a.targets, setupTargets_upTo _ _ 0 (by simp) (by simp) parsed]
    rfl
  rcases (teardownPin_session plan session).mp done with stands | unlike
  · exact absurd (place.trans pin.symm) (apart all stands c target)
  · exact unlike dst pin

theorem routeFits_of_restored (plan : RoutePlan a init cap)
    (parsed : ∀ c ∈ a.targets, targetDst c ≠ none)
    (restored : ∀ m n r, r.dev ≠ a.tun → (r ∈ routesAfter a (.upTo subnet m n) init ↔ r ∈ init)) :
    RouteFits a subnet init cap := by
  have fits : DefaultsFit a subnet init cap :=
    ⟨fun zero _ _ _ => spelled_of_restored plan parsed restored zero,
      fun _ _ _ => subnets_of_restored plan parsed restored⟩
  exact ⟨fits, fun _ target _ => pinned_of_restored plan fits parsed restored target⟩

end

theorem targetDst_host (ip : Ip4) : targetDst (ipToString ip ++ ascii "/32") ≠ none := by
  have digits : ascii "/32" = 0x2F :: Decimal.text 32 := by decide
  have host : ipToString ip ++ ascii "/32" = cidrText ⟨ip4U32 ip, 32⟩ := by
    rw [cidrText, u32Ip4_ip4U32, digits]
  have parsed := cidrParse_text (c := ⟨ip4U32 ip, 32⟩) (Nat.le_refl 32) fun zero => by cases zero
  unfold targetDst canonV4Cidr
  rw [host, parsed]
  split_ifs <;> exact Option.some_ne_none _

theorem pushUnique_parsed {out : List Text} {c : Text} (parsed : ∀ c ∈ out, targetDst c ≠ none)
    (here : targetDst c ≠ none) : ∀ d ∈ pushUnique out c, targetDst d ≠ none := by
  unfold pushUnique
  split_ifs with known
  · exact parsed
  · intro d member
    rcases List.mem_append.mp member with before | last
    · exact parsed d before
    · rwa [List.mem_singleton.mp last]

/-- Setup can read every target that was accepted. -/
theorem expandRouteTargets_parsed {resolve : Text → Option (List Ip4)}
    {given out targets : List Text}
    (accepted : expandRouteTargets resolve given out = some targets)
    (parsed : ∀ c ∈ out, targetDst c ≠ none) : ∀ c ∈ targets, targetDst c ≠ none := by
  fun_induction expandRouteTargets resolve given out with
  | case1 out => exact Option.some.inj accepted ▸ parsed
  | case2 raw rest out p empty ih => exact ih accepted parsed
  | case3 raw rest out p _ named ih =>
    refine ih accepted (pushUnique_parsed parsed ?_)
    rw [named]
    exact Option.some_ne_none Cidr.default
  | case5 raw rest out p _ _ _ cidr read ih =>
    refine ih accepted (pushUnique_parsed parsed ?_)
    unfold targetDst canonV4Cidr
    rw [read]
    split_ifs <;> exact Option.some_ne_none _
  | case6 raw rest out p _ _ _ ip read ih =>
    refine ih accepted (pushUnique_parsed parsed ?_)
    rw [s2ip4_eq_some.mp read]
    exact targetDst_host ip
  | case10 raw rest out p _ _ _ _ _ ips filled found ih =>
    refine ih accepted ?_
    clear accepted filled found ih
    induction ips generalizing out with
    | nil => exact parsed
    | cons ip ips ih => exact ih _ (pushUnique_parsed parsed (targetDst_host ip))
  | case4 | case7 | case8 | case9 => cases accepted

/-- Whatever setup commands fail, the routes of the other devices are as they were, exactly if the
session fits. -/
theorem routes_restored (a : RouteArgs) (subnet : Nat → Option Cidr) (init : RouteTable)
    (cap : Route) (plan : RoutePlan a init cap) (resolve : Text → Option (List Ip4))
    (given : List Text) (accepted : expandRouteTargets resolve given [] = some a.targets) :
    (∀ env : SetupEnv, env.subnet = subnet → ∀ r : Route, r.dev ≠ a.tun →
        (r ∈ routesAfter a env init ↔ r ∈ init)) ↔ RouteFits a subnet init cap := by
  constructor
  · intro restored
    exact routeFits_of_restored plan (expandRouteTargets_parsed accepted (List.forall_mem_nil _))
      fun m n r apart => restored (.upTo subnet m n) rfl r apart
  · rintro fits env rfl r apart
    exact routesAfter_restored plan fits r apart

def sampleArgs (metric : Option Nat) (targets : List String) : RouteArgs :=
  ⟨ascii "tun0", ascii "1.2.3.4", ascii "10.0.2.2", ascii "eth0", metric, targets.map ascii⟩

def routeSampleEnv (subnet : Option Cidr) : SetupEnv :=
  ⟨true, true, fun _ => subnet, fun _ => true, fun _ => true⟩

def samplePhys (dst : Cidr) (metric : Nat) : Route :=
  ⟨dst, metric, some (ascii "10.0.2.2"), ascii "eth0"⟩

theorem routes_restored_sample :
    expandRouteTargets (fun _ => none) [ascii " default", ascii "0.0.0.0/00"] [] =
        some (sampleArgs none ["default", "0.0.0.0/00"]).targets ∧
      ∀ env : SetupEnv, env.subnet = (fun _ => some ⟨0x0a000200, 24⟩) →
        ∀ r : Route, r.dev ≠ ascii "tun0" →
          (r ∈ routesAfter (sampleArgs none ["default", "0.0.0.0/00"]) env
              [samplePhys Cidr.default 0, ⟨⟨0x0a000200, 24⟩, 0, none, ascii "eth0"⟩] ↔
            r ∈ [samplePhys Cidr.default 0, ⟨⟨0x0a000200, 24⟩, 0, none, ascii "eth0"⟩]) := by
  have accepted : expandRouteTargets (fun _ => none) [ascii " default", ascii "0.0.0.0/00"] [] =
      some (sampleArgs none ["default", "0.0.0.0/00"]).targets := by decide +kernel
  refine ⟨accepted, (routes_restored (sampleArgs none ["default", "0.0.0.0/00"]) _ _
    (samplePhys Cidr.default 0) ?_ (fun _ => none) _ accepted).mpr ⟨⟨?_, ?_⟩, ?_⟩⟩
  · refine ⟨?_, ?_, rfl, rfl, rfl, ?_, ?_⟩
    · unfold RouteTable.Distinct
      decide +kernel
    all_goals decide +kernel
  · intro _ front c back whole canon plain
    rcases front with _ | ⟨d, front⟩
    · cases whole
      revert plain
      decide
    · obtain ⟨rfl, _⟩ := List.cons.inj whole
      exact ⟨_, List.mem_cons_self, by decide⟩
  · intro i c loc _ _ same
    cases same
    decide +kernel
  · have apart : ∀ c ∈ (sampleArgs none ["default", "0.0.0.0/00"]).targets,
        targetDst c ≠ (sampleArgs none ["default", "0.0.0.0/00"]).pinDst := by
      decide +kernel
    intro c target dst place pin
    exact absurd (place.trans pin.symm) (apart c target)

/-- A default under another spelling replaces one without a metric for good. -/
theorem routes_not_restored :
    (expandRouteTargets (fun _ => none) [ascii "0.0.0.0/00"] [] = some [ascii "0.0.0.0/00"] ∧
        RoutePlan (sampleArgs none ["0.0.0.0/00"]) [samplePhys Cidr.default 0]
          (samplePhys Cidr.default 0) ∧
        routesAfter (sampleArgs none ["0.0.0.0/00"]) (routeSampleEnv none)
          [samplePhys Cidr.default 0] = []) ∧
      routesAfter (sampleArgs (some 100) ["default"]) (routeSampleEnv (some ⟨0x0a000200, 24⟩))
          [samplePhys Cidr.default 100] =
        [samplePhys Cidr.default 100, ⟨⟨0x0a000200, 24⟩, 0, none, ascii "eth0"⟩] ∧
      routesAfter (sampleArgs (some 100) ["1.2.3.4/32"]) (routeSampleEnv none)
          [samplePhys Cidr.default 100, samplePhys ⟨0x01020304, 32⟩ 50] =
        [samplePhys Cidr.default 100] := by
  refine ⟨⟨by decide +kernel, ?_, by decide +kernel⟩, by decide +kernel, by decide +kernel⟩
  refine ⟨?_, by decide +kernel, rfl, rfl, rfl, by decide +kernel, ?_⟩
  · exact List.nodup_singleton _
  · intro r here unlike
    exact absurd (List.mem_singleton.mp here) unlike

end Iwan
