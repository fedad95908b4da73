import ShadeGraph.Channel.Material
import ShadeGraph.Proofs.Compile.Frame
import ShadeGraph.Proofs.Registry.Registration

/-!
# The tour through host materials

Compiling materials goes through them once more and registers on the way. Each time it leaves the
list it was given, everything below is registered already, so it meets the materials in the order in
which they were registered.
-/

namespace ShadeGraph

namespace Compile

variable {α β γ σ ι : Type}

/-! ### Steps that end well -/

/-- From this session the step ends in a result and a session as told, or in such an error. -/
structure Ends (p : Compile α β) (ctx : Context α) (Q : β → Context α → Prop)
    (E : CompileError → Prop) : Prop where
  ok : ∀ {b later}, p.run.run ctx = (.ok b, later) → Q b later
  error : ∀ {e later}, p.run.run ctx = (.error e, later) → E e

variable {p : Compile α β} {ctx : Context α} {Q : β → Context α → Prop} {E : CompileError → Prop}

theorem Ends.congr {p' : Compile α β} {ctx' : Context α} (h : Ends p' ctx' Q E)
    (hrun : p.run.run ctx = p'.run.run ctx') : Ends p ctx Q E :=
  ⟨fun hok => h.ok (hrun.symm.trans hok), fun herror => h.error (hrun.symm.trans herror)⟩

theorem ends_of_run_ok {b : β} {later : Context α} (hrun : p.run.run ctx = (.ok b, later))
    (h : Q b later) : Ends p ctx Q E := by
  constructor
  · intro b' later' hok
    cases hrun.symm.trans hok
    exact h
  · intro e later' herror
    cases hrun.symm.trans herror

theorem ends_of_run_error {e : CompileError} {later : Context α}
    (hrun : p.run.run ctx = (.error e, later)) (h : E e) : Ends p ctx Q E := by
  constructor
  · intro b later' hok
    cases hrun.symm.trans hok
  · intro e' later' herror
    cases hrun.symm.trans herror
    exact h

theorem ends_pure {b : β} (h : Q b ctx) : Ends (pure b) ctx Q E := ends_of_run_ok rfl h

theorem Ends.bind {f : β → Compile α γ} {R : γ → Context α → Prop} (hp : Ends p ctx Q E)
    (hf : ∀ b later, Q b later → Ends (f b) later R E) : Ends (p >>= f) ctx R E := by
  cases hrun : p.run.run ctx with
  | mk result later =>
    cases result with
    | ok b =>
      apply (hf b later (hp.ok hrun)).congr
      rw [run_bind, hrun]
    | error e =>
      have hthrow : (p >>= f).run.run ctx = (.error e, later) := by rw [run_bind, hrun]
      exact ends_of_run_error hthrow (hp.error hrun)

theorem Ends.mono {Q' : β → Context α → Prop} {E' : CompileError → Prop} (h : Ends p ctx Q E)
    (hQ : ∀ b later, Q b later → Q' b later) (hE : ∀ e, E e → E' e) : Ends p ctx Q' E' :=
  ⟨fun hok => hQ _ _ (h.ok hok), fun herror => hE _ (h.error herror)⟩

theorem Ends.and {Q' : β → Context α → Prop} {E' : CompileError → Prop} (h : Ends p ctx Q E)
    (h' : Ends p ctx Q' E') :
    Ends p ctx (fun b later => Q b later ∧ Q' b later) fun e => E e ∧ E' e :=
  ⟨fun hok => ⟨h.ok hok, h'.ok hok⟩, fun herror => ⟨h.error herror, h'.error herror⟩⟩

theorem Ends.exists_ok (h : Ends p ctx Q E) (hE : ∀ e, ¬ E e) :
    ∃ b later, p.run.run ctx = (.ok b, later) ∧ Q b later := by
  cases hrun : p.run.run ctx with
  | mk result later =>
    cases result with
    | ok b => exact ⟨b, later, rfl, h.ok hrun⟩
    | error e => exact absurd (h.error hrun) (hE e)

/-- What every turn of a loop preserves holds at its end; `update` follows the loop on the side. -/
theorem ends_foldlM (update : γ → ι → γ) {f : σ → ι → Compile α σ}
    {I : γ → σ → Context α → Prop} {xs : List ι}
    (hf : ∀ x ∈ xs, ∀ g s ctx, I g s ctx → Ends (f s x) ctx (I (update g x)) E) {g : γ} {s : σ}
    (h : I g s ctx) : Ends (xs.foldlM f s) ctx (I (xs.foldl update g)) E := by
  induction xs generalizing g s ctx with
  | nil => exact ends_pure h
  | cons x xs ih =>
    obtain ⟨hx, hxs⟩ := List.forall_mem_cons.mp hf
    rw [List.foldlM_cons]
    exact (hx g s ctx h).bind fun s' later hlater => ih hxs hlater

theorem ends_trivial (p : Compile α β) (ctx : Context α) :
    Ends p ctx (fun _ _ => True) fun _ => True := ⟨fun _ => trivial, fun _ => trivial⟩

theorem bind_congr_of_ends {p : Compile α β} {f g : β → Compile α γ} {P : β → Prop}
    (hp : ∀ ctx, Ends p ctx (fun b _ => P b) fun _ => True) (h : ∀ b, P b → f b = g b) :
    p >>= f = p >>= g := by
  funext ctx
  change (p >>= f).run.run ctx = (p >>= g).run.run ctx
  rw [run_bind, run_bind]
  cases hrun : p.run.run ctx with
  | mk result later =>
    cases result with
    | ok b =>
      have hb : P b := (hp ctx).ok hrun
      exact congrArg (fun q : Compile α γ => q.run.run later) (h b hb)
    | error e => rfl

theorem foldlM_congr_of_ends {f g : σ → ι → Compile α σ} {P : σ → Prop} {xs : List ι}
    (hP : ∀ x ∈ xs, ∀ s ctx, P s → Ends (f s x) ctx (fun s' _ => P s') fun _ => True)
    (h : ∀ x ∈ xs, ∀ s, P s → f s x = g s x) {s : σ} (hs : P s) :
    xs.foldlM f s = xs.foldlM g s := by
  induction xs generalizing s with
  | nil => rfl
  | cons x xs ih =>
    obtain ⟨hx, hxs⟩ := List.forall_mem_cons.mp hP
    obtain ⟨hfg, hrest⟩ := List.forall_mem_cons.mp h
    rw [List.foldlM_cons, List.foldlM_cons, ← hfg s hs]
    exact bind_congr_of_ends (fun ctx => hx s ctx hs) fun s' hs' => ih hxs hrest hs'

/-- A step that keeps the session ends in one that continues it. -/
theorem Keeps.ends (h : Keeps p) (ctx : Context α) :
    Ends p ctx (fun _ later => ctx.Continues later)
      fun e => ∃ ctx : Context α, (p.run.run ctx).1 = .error e := by
  have hkeeps := h ctx
  constructor
  · intro b later hok
    rwa [hok] at hkeeps
  · intro e later herror
    exact ⟨ctx, by rw [herror]⟩

theorem ends_get : Ends get ctx (fun seen later => seen = ctx ∧ later = ctx) E :=
  ends_of_run_ok rfl ⟨rfl, rfl⟩

theorem ends_warn (text : String) :
    Ends (warn text) ctx (fun _ later => ctx.Continues later) E :=
  ends_of_run_ok rfl (keeps_warn text ctx)

theorem ends_debug (text : String) :
    Ends (debug text) ctx (fun _ later => ctx.Continues later) E :=
  ends_of_run_ok rfl (keeps_debug text ctx)

theorem ends_note (f : Usage α → Usage α) :
    Ends (note f) ctx (fun _ later => ctx.Continues later) E :=
  ends_of_run_ok rfl (keeps_note f ctx)

theorem run_register (step : Register β) (ctx : Context α) :
    (register step).run.run ctx = (.ok (step.run ctx.registrar).1,
      { ctx with registrar := (step.run ctx.registrar).2 }) := rfl

theorem ends_modify (f : Context α → Context α) :
    Ends (modify f) ctx (fun _ later => later = f ctx) E := ends_of_run_ok rfl rfl

theorem ends_registerStep (step : Register β) :
    Ends (register step) ctx (fun _ later => ∃ registrar, later = { ctx with registrar }) E :=
  ends_of_run_ok (run_register step ctx) ⟨_, rfl⟩

/-- Registering a material again changes nothing. -/
theorem run_register_known {hosts : HostTable α} {id : HostId} {r : MaterialRecord}
    (h : ctx.registrar.registry.find? (hosts.key id) = some r) :
    (register (Registrar.register hosts id)).run.run ctx = (.ok r, ctx) := by
  rw [run_register, Registrar.register, Registrar.run_registerWithin_known _ h]

theorem ends_register_known {hosts : HostTable α} {id : HostId} {r : MaterialRecord}
    (h : ctx.registrar.registry.find? (hosts.key id) = some r) :
    Ends (register (Registrar.register hosts id)) ctx (fun r' later => r' = r ∧ later = ctx) E :=
  ends_of_run_ok (run_register_known h) ⟨rfl, rfl⟩

/-! ### What has been met -/

/-- The tour has met these materials: of the plain ones it has the compiled forms, in order. -/
structure Covers (hosts : HostTable α) (registry : Registry) (seen : List HostId) (tour : Tour) :
    Prop where
  multis : ∀ {id}, id ∈ tour.multis ↔ id ∈ seen ∧ ¬ hosts.IsPlain id
  compiled : ∀ {key}, key ∈ tour.compiled ↔ ∃ p ∈ hosts.plains seen, hosts.key p = key
  materials : List.Forall₂
    (fun p m => m.name = (hosts.get p).name ∧ registry.find? (hosts.key p) = some m.identity)
    (hosts.plains seen) tour.materials

namespace Covers

variable {hosts : HostTable α} {registry : Registry} {seen : List HostId} {tour : Tour}
variable {id : HostId}

theorem empty : Covers hosts registry [] {} :=
  ⟨by simp, by simp [HostTable.plains], .nil⟩

theorem later (h : Covers hosts registry seen tour) {registry' : Registry}
    (hsame : ∀ p ∈ hosts.plains seen,
      registry'.find? (hosts.key p) = registry.find? (hosts.key p)) :
    Covers hosts registry' seen tour := by
  refine ⟨h.multis, h.compiled, ?_⟩
  refine ((List.forall₂_and_left _ _).mpr ⟨hsame, h.materials⟩).imp ?_
  rintro p m ⟨hsame, hname, hidentity⟩
  exact ⟨hname, hsame.trans hidentity⟩

theorem meet (h : Covers hosts registry seen tour) (hmulti : ¬ hosts.IsPlain id) :
    Covers hosts registry (seen ++ [id]) { tour with multis := id :: tour.multis } := by
  have hplains := hosts.plains_append_of_not_isPlain seen hmulti
  refine ⟨?_, ?_, ?_⟩
  · intro x
    simp only [List.mem_cons, List.mem_append, List.not_mem_nil, or_false, h.multis]
    constructor
    · rintro (rfl | ⟨hx, hplain⟩)
      · exact ⟨.inr rfl, hmulti⟩
      · exact ⟨.inl hx, hplain⟩
    · rintro ⟨hx | rfl, hplain⟩
      · exact .inr ⟨hx, hplain⟩
      · exact .inl rfl
  · rw [hplains]
    exact h.compiled
  · rw [hplains]
    exact h.materials

theorem compile (h : Covers hosts registry seen tour) (hplain : hosts.IsPlain id) {m : Material}
    (hname : m.name = (hosts.get id).name)
    (hidentity : registry.find? (hosts.key id) = some m.identity) :
    Covers hosts registry (seen ++ [id]) { tour with
      compiled := hosts.key id :: tour.compiled, materials := tour.materials ++ [m] } := by
  have hplains := hosts.plains_append_of_isPlain seen hplain
  refine ⟨?_, ?_, ?_⟩
  · intro x
    rw [h.multis, List.mem_append, List.mem_singleton, or_and_right]
    refine (or_iff_left ?_).symm
    rintro ⟨rfl, hmulti⟩
    exact hmulti hplain
  · intro key
    rw [hplains, List.mem_cons, h.compiled]
    simp only [List.mem_append, List.mem_singleton]
    constructor
    · rintro (rfl | ⟨p, hp, rfl⟩)
      · exact ⟨id, .inr rfl, rfl⟩
      · exact ⟨p, .inl hp, rfl⟩
    · rintro ⟨p, hp | rfl, rfl⟩
      · exact .inr ⟨p, hp, rfl⟩
      · exact .inl rfl
  · rw [hplains]
    exact List.rel_append h.materials (.cons ⟨hname, hidentity⟩ .nil)

end Covers

/-- A tour within what is registered. -/
structure Touring (hosts : HostTable α) (roots : List HostId) (registry : Registry)
    (seen : List HostId) (tour : Tour) (ctx : Context α) : Prop where
  same : ctx.registrar.registry = registry
  reached : ∀ x ∈ seen, hosts.Reached roots x
  covers : Covers hosts registry seen tour

theorem Touring.reached_append {hosts : HostTable α} {roots seen : List HostId}
    {registry : Registry} {tour : Tour} (h : Touring hosts roots registry seen tour ctx)
    {id : HostId} (hid : hosts.Reached roots id) : ∀ x ∈ seen ++ [id], hosts.Reached roots x :=
  List.forall_mem_append.mpr ⟨h.reached, by simpa using hid⟩

theorem Touring.continues {hosts : HostTable α} {roots seen : List HostId}
    {registry : Registry} {tour : Tour} (h : Touring hosts roots registry seen tour ctx)
    {later : Context α} (hlater : ctx.Continues later) :
    Touring hosts roots registry seen tour later :=
  ⟨hlater.registry.trans h.same, h.reached, h.covers⟩

variable [Scalar α]

/-! ### One material -/

/-- Some channel that is compiled raises the error. -/
def ChannelRaises (material : String) (ds : List (ChannelDescriptor α)) (e : CompileError) : Prop :=
  ∃ d ∈ ds, ∃ ctx : Context α, ((compileChannel material d).run.run ctx).1 = .error e

theorem ends_compileChannels (material : String) (ds : List (ChannelDescriptor α))
    (channels : Table String NodeId) (ctx : Context α) :
    Ends (compileChannels material ds channels) ctx (fun _ later => ctx.Continues later)
      (ChannelRaises material ds) := by
  induction ds generalizing channels ctx with
  | nil => exact ends_pure (.refl ctx)
  | cons d ds ih =>
    have hrest (channels : Table String NodeId) (middle : Context α) (h : ctx.Continues middle) :
        Ends (compileChannels material ds channels) middle (fun _ later => ctx.Continues later)
          (ChannelRaises material (d :: ds)) := by
      refine (ih channels middle).mono (fun _ _ hlater => h.trans hlater) ?_
      rintro e ⟨d', hd', hraises⟩
      exact ⟨d', List.mem_cons_of_mem d hd', hraises⟩
    unfold compileChannels
    split
    · exact (ends_warn _).bind fun _ middle h => hrest channels middle h
    · refine (((keeps_compileChannel material d).ends ctx).mono (fun _ _ h => h) ?_).bind ?_
      · exact fun e hraises => ⟨d, List.mem_cons_self, hraises⟩
      · intro n middle h
        cases n with
        | some n => exact hrest _ middle h
        | none => exact hrest _ middle h

theorem ends_compileMaterial {hosts : HostTable α} {id : HostId} {r : MaterialRecord}
    (h : ctx.registrar.registry.find? (hosts.key id) = some r) :
    Ends (compileMaterial hosts id) ctx
      (fun m later => ctx.Continues later ∧ m.name = (hosts.get id).name ∧ m.identity = r)
      (ChannelRaises (hosts.get id).name (hosts.get id).channels) := by
  refine (ends_register_known h).bind ?_
  rintro _ _ ⟨rfl, rfl⟩
  refine (ends_compileChannels _ _ _ _).bind fun channels middle hmiddle => ?_
  refine ends_get.bind ?_
  rintro _ _ ⟨rfl, rfl⟩
  exact (ends_debug _).bind fun _ later hlater => ends_pure ⟨hmiddle.trans hlater, rfl, rfl⟩

/-! ### Visiting -/

/-- Some channel of a plain material that the roots lead to raises the error. -/
def Raised (hosts : HostTable α) (roots : List HostId) (e : CompileError) : Prop :=
  ∃ p, hosts.IsPlain p ∧ hosts.Reached roots p ∧
    ChannelRaises (hosts.get p).name (hosts.get p).channels e

section

variable {hosts : HostTable α} {roots seen : List HostId} {registry : Registry} {tour : Tour}
variable {depth : Nat} {id : HostId}

/-- Visiting a plain material compiles it unless it was met. -/
theorem ends_visitWithin_plain (hkeys : hosts.DistinctKeys roots) (hid : hosts.Reached roots id)
    (hplain : hosts.IsPlain id) {r : MaterialRecord}
    (hr : ctx.registrar.registry.find? (hosts.key id) = some r) (hkey : r.key = hosts.key id)
    (h : Touring hosts roots registry seen tour ctx) :
    Ends (visitWithin hosts (depth + 1) id tour) ctx
      (Touring hosts roots registry (hosts.exploreWithin (depth + 1) seen id))
      (Raised hosts roots) := by
  have hmet := hkeys.key_mem_iff h.reached hid
  have hcompiled : tour.compiled.contains r.key = true ↔ id ∈ seen := by
    rw [List.contains_iff_mem, h.covers.compiled, hkey]
    constructor
    · rintro ⟨p, hp, hsame⟩
      exact hmet.mp (List.mem_map.mpr ⟨p, (HostTable.mem_plains_iff.mp hp).1, hsame⟩)
    · exact fun hseen => ⟨id, HostTable.mem_plains_iff.mpr ⟨hseen, hplain⟩, rfl⟩
  rw [visitWithin, HostTable.exploreWithin, HostTable.followed_of_isPlain hplain]
  dsimp only
  rw [if_neg (by simpa [HostTable.IsPlain] using hplain)]
  refine (ends_register_known hr).bind ?_
  rintro _ _ ⟨rfl, rfl⟩
  split_ifs with hold hseen hseen
  · exact ends_pure h
  · exact absurd (hmet.mpr (hcompiled.mp hold)) hseen
  · exact absurd (hcompiled.mpr (hmet.mp hseen)) hold
  · have hmaterial := (ends_compileMaterial hr).mono (fun _ _ hm => hm)
      fun e he => (⟨id, hplain, hid, he⟩ : Raised hosts roots e)
    refine hmaterial.bind ?_
    rintro m later ⟨hlater, hname, hidentity⟩
    refine ends_pure ⟨hlater.registry.trans h.same, h.reached_append hid, ?_⟩
    rw [hkey]
    exact h.covers.compile hplain hname (by rw [hidentity, ← h.same, hr])

theorem ends_visitWithin (depth : Nat) (hkeys : hosts.DistinctKeys roots)
    (hstored : ∀ {key r}, registry.find? key = some r → r.key = key) (hid : hosts.Reached roots id)
    (hknown : ∀ x, hosts.Reaches id x → ∃ r, registry.find? (hosts.key x) = some r)
    (h : Touring hosts roots registry seen tour ctx) :
    Ends (visitWithin hosts depth id tour) ctx
      (Touring hosts roots registry (hosts.exploreWithin depth seen id)) (Raised hosts roots) := by
  induction depth generalizing id seen tour ctx with
  | zero => exact ends_pure h
  | succ depth ih =>
    obtain ⟨r, hr⟩ := hknown id .refl
    have hfound := hr
    rw [← h.same] at hfound
    by_cases hplain : hosts.IsPlain id
    · exact ends_visitWithin_plain hkeys hid hplain hfound (hstored hr) h
    · have hmet := hkeys.key_mem_iff h.reached hid
      have hmulti : tour.multis.contains id = true ↔ id ∈ seen := by
        rw [List.contains_iff_mem, h.covers.multis, and_iff_left hplain]
      rw [visitWithin, HostTable.exploreWithin]
      dsimp only
      rw [if_pos (HostTable.not_isPlain_iff.mp hplain)]
      split_ifs with hold hseen hseen
      · exact ends_pure h
      · exact absurd (hmet.mpr (hmulti.mp hold)) hseen
      · exact absurd (hmulti.mpr (hmet.mp hseen)) hold
      · refine (ends_register_known hfound).bind ?_
        rintro _ _ ⟨rfl, rfl⟩
        refine ends_foldlM _ ?_ ⟨h.same, h.reached_append hid, h.covers.meet hplain⟩
        rintro ⟨slot, sub⟩ hslot seen tour ctx h
        have hbelow (x : HostId) (hx : hosts.Reaches sub x) :=
          hknown x (.head ⟨slot, hslot⟩ hx)
        refine (ends_note _).bind fun _ later hlater => ?_
        exact ih (hid.slot hslot) hbelow (h.continues hlater)

/-! ### Depth -/

/-- Whatever is met stays met. -/
theorem ends_visitWithin_multis (depth : Nat) (id : HostId) (tour : Tour) (ctx : Context α) :
    Ends (visitWithin hosts depth id tour) ctx
      (fun later _ => ∀ x ∈ tour.multis, x ∈ later.multis) fun _ => True := by
  induction depth generalizing id tour ctx with
  | zero => exact ends_pure fun _ hx => hx
  | succ depth ih =>
    unfold visitWithin
    dsimp only
    split_ifs
    · exact ends_pure fun _ hx => hx
    · refine (ends_trivial _ ctx).bind fun _ later _ => ?_
      refine ends_foldlM (fun _ _ => ()) (g := ())
        (I := fun _ (t : Tour) _ => ∀ x ∈ tour.multis, x ∈ t.multis) ?_
        fun x hx => List.mem_cons_of_mem id hx
      rintro ⟨slot, sub⟩ _ _ t ctx ht
      refine (ends_trivial _ ctx).bind fun _ later _ => ?_
      exact (ih sub t later).mono (fun _ _ h x hx => h x (ht x hx)) fun _ h => h
    · refine (ends_trivial _ ctx).bind fun r later _ => ?_
      split_ifs
      · exact ends_pure fun _ hx => hx
      · exact (ends_trivial _ later).bind fun m last _ => ends_pure fun _ hx => hx

theorem visitWithin_congr {depth' : Nat} {tour : Tour}
    (hdepth : hosts.unmet (fun x => x ∈ tour.multis) < depth)
    (hdepth' : hosts.unmet (fun x => x ∈ tour.multis) < depth') :
    (visitWithin hosts depth id tour : Compile α Tour) = visitWithin hosts depth' id tour := by
  induction depth generalizing depth' id tour with
  | zero => exact absurd hdepth (Nat.not_lt_zero _)
  | succ depth ih =>
    obtain _ | depth' := depth'
    · exact absurd hdepth' (Nat.not_lt_zero _)
    unfold visitWithin
    dsimp only
    split_ifs with hmulti hold
    · rfl
    · have hplain : ¬ hosts.IsPlain id := HostTable.not_isPlain_iff.mpr hmulti
      have hnew : id ∉ tour.multis := fun hmem => hold (List.contains_iff_mem.mpr hmem)
      have hless {t : Tour} (ht : ∀ x ∈ id :: tour.multis, x ∈ t.multis) :
          hosts.unmet (fun x => x ∈ t.multis) < hosts.unmet (fun x => x ∈ tour.multis) :=
        HostTable.unmet_lt (fun x hx => ht x (List.mem_cons_of_mem id hx)) hplain hnew
          (ht id List.mem_cons_self)
      refine bind_congr fun _ => foldlM_congr_of_ends
        (P := fun t => ∀ x ∈ id :: tour.multis, x ∈ t.multis) ?_ ?_ fun _ hx => hx
      · rintro ⟨slot, sub⟩ _ t ctx ht
        refine (ends_trivial _ ctx).bind fun _ later _ => ?_
        exact (ends_visitWithin_multis depth sub t later).mono (fun _ _ h x hx => h x (ht x hx))
          fun _ h => h
      · rintro ⟨slot, sub⟩ _ t ht
        have := hless ht
        exact bind_congr fun _ => ih (by omega) (by omega)
    · rfl

/-- The bound on the depth is never met: with any greater one the same is done. -/
theorem visitWithin_eq_of_size_lt (hdepth : hosts.size < depth) :
    (visitWithin hosts depth : HostId → Tour → Compile α Tour) =
      visitWithin hosts (hosts.size + 1) := by
  funext id tour
  exact visitWithin_congr (HostTable.unmet_le_size.trans_lt hdepth)
    (Nat.lt_succ_of_le HostTable.unmet_le_size)

end

end Compile

end ShadeGraph
