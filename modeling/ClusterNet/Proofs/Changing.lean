import ClusterNet.Proofs.BothWays

/-!
# Calls among changing handlers

Handlers come and go while calls are made. A call comes to what the handlers make of it that are
there when it begins, if these stay until it is over, whatever was called and registered before.
-/

namespace ClusterNet.Messaging

open Wire

namespace Exchange

variable {limit capacity room lag now work n : Nat} {asked : Request → Prop}
  {offered : String → Handler → Prop} {handlers : Handlers} {x : Exchange} {up down : List Message}
  {k : CallKey} {r : Request}

/-! ## Over the stream -/

/-- The two ends of a stream between which calls were made while handlers came and went. -/
inductive Reached (limit capacity room : Nat) (asked : Request → Prop) (offered : String → Handler → Prop) :
    Exchange → Prop where
  | start : Reached limit capacity room asked offered (start limit capacity room)
  | acts {x : Exchange} {a : LinkAct} (before : Reached limit capacity room asked offered x) (plain : a.Plain)
      (within : Within asked offered a) : Reached limit capacity room asked offered (x.act a)
  | changes {x : Exchange} (before : Reached limit capacity room asked offered x) (handlers : Handlers)
      (within : ∀ {s h}, handlers.get? s = some h → offered s h) :
      Reached limit capacity room asked offered { x with handlers }

theorem Smooth.changes (h : x.Smooth limit asked offered handlers up down) {handlers' : Handlers}
    (hoffered : ∀ {s g}, handlers'.get? s = some g → offered s g) :
    Smooth limit asked offered handlers' { x with handlers := handlers' } up down where
  inv := { h.inv with registered := hoffered }
  unbroken := { h.unbroken with }
  handlers := rfl
  flowing := h.flowing

theorem Reached.smooth (h : Reached limit capacity room asked offered x) (hcapacity : 0 < capacity)
    (hroom : 0 < room) (hfit : Fitting limit asked offered) :
    (∃ up down, x.Smooth limit asked offered x.handlers up down) ∧ x.link.Orderly := by
  induction h with
  | start =>
    refine ⟨⟨[], [], ?_⟩, orderly_startWith limit capacity room .empty⟩
    exact ⟨inv_start limit capacity room asked offered, open_start limit capacity room, rfl,
      Link.flowing_start limit hcapacity hroom⟩
  | acts before plain within ih =>
    obtain ⟨⟨up, down, hsmooth⟩, horderly⟩ := ih
    obtain ⟨up', down', hsmooth', -⟩ := hsmooth.act hfit plain within
    rw [← hsmooth'.handlers] at hsmooth'
    exact ⟨⟨up', down', hsmooth'⟩, hsmooth.orderly_act hfit plain horderly⟩
  | changes before handlers within ih =>
    obtain ⟨⟨up, down, hsmooth⟩, horderly⟩ := ih
    exact ⟨⟨up, down, hsmooth.changes within⟩, horderly⟩

/-- The two ends after a call that found these handlers, which have stayed since. -/
inductive LateCall (limit capacity room : Nat) (asked : Request → Prop) (offered : String → Handler → Prop)
    (handlers : Handlers) (r : Request) (n lag : Nat) (k : CallKey) : Exchange → Prop where
  | made {x : Exchange} (before : Reached limit capacity room asked offered x) (found : x.handlers = handlers)
      (within : asked r) (fresh : x.isFresh k r.id = true) (post : List LinkAct)
      (plain : ∀ a ∈ post, a.Plain ∧ Within asked offered a) (now : Nat)
      (runs : timing.Runs lag now (x.act (.begins k r n)) post) :
      LateCall limit capacity room asked offered handlers r n lag k ((x.act (.begins k r n)).run post)

theorem LateCall.ends (h : LateCall limit capacity room asked offered handlers r n lag k x)
    (hcapacity : 0 < capacity) (hroom : 0 < room) (hfit : Fitting limit asked offered) : Ends step? x := by
  cases h with
  | made before found within fresh post plain now runs =>
    obtain ⟨⟨up, down, hsmooth⟩, horderly⟩ := before.smooth hcapacity hroom hfit
    have hplain : ∀ a ∈ .begins k r n :: post, a.Plain ∧ Within asked offered a :=
      List.forall_mem_cons.mpr ⟨⟨trivial, within⟩, plain⟩
    obtain ⟨up', down', hend⟩ := hsmooth.run hfit hplain
    exact hend.ends hfit (hsmooth.orderly_run hfit hplain horderly)

theorem Inv.undispatched (h : x.Inv limit asked offered) {id : UInt64} (hfresh : x.isFresh k id = true)
    {d : Request × Option Handler} (hd : d ∈ x.dispatched) : d.1.id ≠ id := by
  obtain ⟨l, -, -, hmem⟩ := h.up
  obtain ⟨k', r', hk', heq⟩ := hmem _ (List.mem_append_left l (List.mem_map.mpr ⟨d, hd, rfl⟩))
  rw [Message.request.inj heq, id_resolved]
  exact (values_of_isFresh hfresh).2 hk'

/-- The handlers get the request as it is read from the stream, with the numeric address of its sender. -/
theorem LateCall.over (h : LateCall limit capacity room asked offered handlers r n lag k x)
    (hcapacity : 0 < capacity) (hroom : 0 < room) (hfit : Fitting limit asked offered)
    (hwork : Lasts handlers (resolved r) work) (hshort : work + lag < n) (hfinal : x.Final) :
    ∃ call o, x.link.client.call? k = some call ∧ call.outcome? = some o ∧ Deserves handlers (resolved r) o ∧
      x.link.server.log.filter (·.concerns r.id) = seen handlers (resolved r) := by
  cases h with
  | @made x before found within fresh post plain now runs =>
    subst found
    obtain ⟨⟨up, down, hsmooth⟩, -⟩ := before.smooth hcapacity hroom hfit
    have hbegun : (x.act (.begins k r n)).Underway limit asked offered x.handlers ⟨k, r, n, work⟩ lag now :=
      underway_begin hsmooth hfit ⟨k, r, n, work⟩ within fresh hshort
    have hkeeps := keeps_underway (e := ⟨k, r, n, work⟩) hfit hwork
    obtain ⟨lag', now', hunderway⟩ := hkeeps.run runs hbegun plain
    have hplain : ∀ a ∈ .begins k r n :: post, a.Plain ∧ Within asked offered a :=
      List.forall_mem_cons.mpr ⟨⟨trivial, within⟩, plain⟩
    have hdispatched := hsmooth.dispatched hfit hplain r.id
      fun d hd hid => absurd hid (hsmooth.inv.undispatched fresh hd)
    exact hunderway.deserved hdispatched hfinal

end Exchange

namespace LocalLink

variable {lag now work n : Nat} {handlers : Handlers} {k : CallKey} {r : Request} {l : LocalLink}

/-! ## Within the node -/

/-- A node that has called itself while handlers came and went. -/
inductive Reached : LocalLink → Prop where
  | start : Reached start
  | acts {l : LocalLink} (before : Reached l) (handlers : Handlers)
      (adapted : ∀ s h, handlers.get? s = some h → h.Adapted) (a : LocalAct) : Reached (l.act handlers a)

theorem Reached.tidy (h : Reached l) : l.Tidy ∧ l.Orderly := by
  induction h with
  | start => exact ⟨tidy_start, orderly_start⟩
  | acts before handlers adapted a ih => exact ⟨ih.1.act adapted a, ih.1.orderly_act ih.2 adapted a⟩

/-- A node after a call of itself that found these handlers, which have stayed since. -/
inductive LateCall (handlers : Handlers) (r : Request) (n lag : Nat) (k : CallKey) : LocalLink → Prop where
  | made {l : LocalLink} (before : Reached l) (fresh : l.isFresh k r.id = true) (now : Nat) (post : List LocalAct)
      (runs : (timing handlers).Runs lag now (l.act handlers (.begins now k r n)) post) :
      LateCall handlers r n lag k ((l.act handlers (.begins now k r n)).run handlers post)

theorem LateCall.ends (h : LateCall handlers r n lag k l)
    (hadapted : ∀ s g, handlers.get? s = some g → g.Adapted) : Ends step? l := by
  cases h with
  | made before fresh now post runs =>
    obtain ⟨htidy, horderly⟩ := before.tidy
    exact (htidy.orderly_run horderly hadapted (.begins now k r n :: post)).ends

theorem LateCall.over (h : LateCall handlers r n lag k l) (hadapted : ∀ s g, handlers.get? s = some g → g.Adapted)
    (hwork : Lasts handlers r work) (hshort : work + lag < n) (hfinal : l.Final) :
    ∃ call o, l.calls.get? k = some call ∧ call.outcome? = some o ∧ Deserves handlers r o ∧
      l.log.filter (·.concerns r.id) = seen handlers r := by
  cases h with
  | @made l before fresh now post runs =>
    have hbegun : (l.act handlers (.begins now k r n)).NearUnderway handlers ⟨k, r, n, work⟩ lag now :=
      nearUnderway_begin (e := ⟨k, r, n, work⟩) before.tidy.1 hadapted fresh hwork hshort now
    obtain ⟨lag', now', hunderway⟩ := (keeps_nearUnderway hadapted).run runs hbegun fun _ _ => trivial
    obtain ⟨call, o, hcall, hover, hdeserves⟩ := hunderway.over hfinal
    exact ⟨call, o, hcall, hover, hdeserves, hunderway.seen⟩

end LocalLink

/-! ## Either way -/

/-- What became of a call of a node to itself or over a stream, once nothing can move any more: its
outcome, and what the handlers have seen of it. -/
inductive Settled (handlers : Handlers) (r : Request) (n lag : Nat) : Option Outcome → List Event → Prop where
  | near {k : CallKey} {l : LocalLink} (call : LocalLink.LateCall handlers r n lag k l) (final : l.Final) :
      Settled handlers r n lag ((l.calls.get? k).bind Call.outcome?) (l.log.filter (·.concerns r.id))
  | far {limit capacity room : Nat} {asked : Request → Prop} {offered : String → Handler → Prop} {k : CallKey}
      {x : Exchange} (capacious : 0 < capacity) (roomy : 0 < room) (fitting : Fitting limit asked offered)
      (call : Exchange.LateCall limit capacity room asked offered handlers r n lag k x) (final : x.Final) :
      Settled handlers r n lag ((x.link.client.call? k).bind Call.outcome?)
        (x.link.server.log.filter (·.concerns r.id))

/-- A request with the same subject and the same payload, perhaps with another address of its sender. -/
def Request.Alike (r r' : Request) : Prop := r'.subject = r.subject ∧ r'.payload = r.payload

theorem Settled.deserved {handlers : Handlers} {r : Request} {n lag work : Nat} {o : Option Outcome}
    {log : List Event} (h : Settled handlers r n lag o log)
    (hadapted : ∀ s g, handlers.get? s = some g → g.Adapted)
    (hwork : ∀ r', Request.Alike r r' → Lasts handlers r' work) (hshort : work + lag < n) :
    ∃ r' o', Request.Alike r r' ∧ o = some o' ∧ Deserves handlers r' o' ∧ log = seen handlers r' := by
  cases h with
  | near call final =>
    obtain ⟨c, o, hcall, hover, hdeserves, hseen⟩ := call.over hadapted (hwork r ⟨rfl, rfl⟩) hshort final
    exact ⟨r, o, ⟨rfl, rfl⟩, by rw [hcall, Option.bind_some, hover], hdeserves, hseen⟩
  | far capacious roomy fitting call final =>
    have halike : Request.Alike r (resolved r) := ⟨subject_resolved r, payload_resolved r⟩
    obtain ⟨c, o, hcall, hover, hdeserves, hseen⟩ :=
      call.over capacious roomy fitting (hwork _ halike) hshort final
    exact ⟨resolved r, o, halike, by rw [hcall, Option.bind_some, hover], hdeserves, hseen⟩

end ClusterNet.Messaging
