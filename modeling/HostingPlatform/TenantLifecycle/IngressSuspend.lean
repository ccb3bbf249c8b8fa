import Mathlib.Data.List.Nodup

/-! The suspension of the ingress routes of a namespace, by a Middleware for each, and its end. -/
namespace HostingPlatform.TenantLifecycle.IngressSuspend

open List

structure MiddlewareRef where
  name : String
  namespace_ : Option String
  deriving DecidableEq

/- `routes` has the `middlewares` of each of its entries; the other fields are not read -/
structure IngressRoute where
  name : String
  annotations : Option (List (String × String))
  routes : Option (List (Option (List MiddlewareRef)))
  deriving DecidableEq

def suspendedMarkerAnnotation : String := "platform.io/suspended"

/- names of objects are of ASCII -/
def suspendMiddlewareName (routeName : String) : String := "r-" ++ String.ofList (routeName.toList.take 8) ++ "-suspend"

/- the lists, an empty one where there is none -/
def IngressRoute.effective (r : IngressRoute) : List (List MiddlewareRef) := (r.routes.getD []).map (·.getD [])

def IngressRoute.marked (r : IngressRoute) : Bool :=
  (r.annotations.getD []).lookup suspendedMarkerAnnotation = some "true"

section writes

variable (ns : String)

def refersTo (mwName : String) (m : MiddlewareRef) : Bool := m.name == mwName && m.namespace_.getD ns == ns

def suspendRoute (r : IngressRoute) : IngressRoute :=
  let annotations := r.annotations.getD []
  let mwName := suspendMiddlewareName r.name
  { r with
    annotations := some (if annotations.any (·.1 == suspendedMarkerAnnotation)
      then annotations.map (fun e => if e.1 = suspendedMarkerAnnotation then (e.1, "true") else e)
      else annotations ++ [( suspendedMarkerAnnotation, "true")])
    routes := some ((r.routes.getD []).map (fun middlewares =>
      let existing := middlewares.getD []
      if existing.any (refersTo ns mwName) then middlewares else some (⟨mwName, some ns⟩ :: existing))) }

def resumeRoute (r : IngressRoute) : IngressRoute :=
  { r with
    annotations := some ((r.annotations.getD []).filter (·.1 != suspendedMarkerAnnotation))
    routes := some ((r.routes.getD []).map (fun middlewares =>
      some ((middlewares.getD []).filter (fun m => !refersTo ns (suspendMiddlewareName r.name) m)))) }

inductive Write where
  | applyMiddleware (name : String)
  | replaceIngressRoute (name : String) (mutate : IngressRoute → IngressRoute)
  | deleteMiddleware (name : String)

/- the Middlewares that have been deleted and not applied again -/
structure Namespace where
  routes : List IngressRoute
  deleted : List String

def write (s : Namespace) : Write → Namespace
  | .applyMiddleware name => { s with deleted := s.deleted.filter (· != name) }
  | .replaceIngressRoute name mutate => { s with routes := s.routes.map (fun r => if r.name = name then mutate r else r) }
  | .deleteMiddleware name => { s with deleted := name :: s.deleted }

def run (s : Namespace) (writes : List Write) : Namespace := writes.foldl write s

def suspendNamespaceIngresses (routes : List IngressRoute) : List Write :=
  routes.flatMap (fun r => if r.name = "" ∨ r.marked = true then [] else
    [.applyMiddleware (suspendMiddlewareName r.name), .replaceIngressRoute r.name (suspendRoute ns)])

def resumeNamespaceIngresses (routes : List IngressRoute) : List Write :=
  routes.flatMap (fun r => if r.name = "" ∨ r.marked = false then [] else
    [.replaceIngressRoute r.name (resumeRoute ns), .deleteMiddleware (suspendMiddlewareName r.name)])

/- the writes of a suspension, and of the resumption after it -/
def roundTrip (routes : List IngressRoute) : List Write :=
  suspendNamespaceIngresses ns routes ++
    resumeNamespaceIngresses ns (run ⟨routes, []⟩ (suspendNamespaceIngresses ns routes)).routes

def Namespace.Sound (s : Namespace) : Prop :=
  ∀ r ∈ s.routes, ∀ l ∈ r.effective, ∀ m ∈ l, m.namespace_.getD ns = ns → m.name ∉ s.deleted

/- what a route does to its requests, and its annotations -/
def IngressRoute.shown (r : IngressRoute) : String × List (List MiddlewareRef) × List (String × String) :=
  (r.name, r.effective, r.annotations.getD [])

/-- The routes are as they were, and no write on the way has left a route without its Middleware. -/
def Undone (routes : List IngressRoute) : Prop :=
  (run ⟨routes, []⟩ (roundTrip ns routes)).routes.map IngressRoute.shown = routes.map IngressRoute.shown ∧
    ∀ n, (run ⟨routes, []⟩ ((roundTrip ns routes).take n)).Sound ns

/-- No route refers to the Middleware of a suspension, and a route that shares its Middleware with an earlier one has
no entries. -/
def Apart (routes : List IngressRoute) : Prop :=
  (∀ i ∈ routes, ∀ r ∈ routes, ∀ l ∈ r.effective, ∀ m ∈ l, refersTo ns (suspendMiddlewareName i.name) m = false) ∧
    routes.Pairwise (fun i j => suspendMiddlewareName i.name = suspendMiddlewareName j.name → j.effective = [])

end writes

variable {ns : String} {r : IngressRoute} {s : Namespace} {routes done rest mid : List IngressRoute} {deleted : List String}

def restored (ns : String) (r : IngressRoute) : IngressRoute := resumeRoute ns (suspendRoute ns r)

theorem run_append (s : Namespace) (first later : List Write) : run s (first ++ later) = run (run s first) later :=
  foldl_append

theorem effective_suspend : (suspendRoute ns r).effective = r.effective.map (fun l =>
    if l.any (refersTo ns (suspendMiddlewareName r.name)) then l else ⟨suspendMiddlewareName r.name, some ns⟩ :: l) := by
  simp only [IngressRoute.effective, suspendRoute, Option.getD_some, map_map]
  refine map_congr_left fun l _ => ?_
  simp only [Function.comp_apply]
  split <;> rfl

theorem effective_restored : (restored ns r).effective = r.effective.map (fun l =>
    l.filter (fun m => !refersTo ns (suspendMiddlewareName r.name) m)) := by
  have resumed : ∀ r : IngressRoute, (resumeRoute ns r).effective = r.effective.map (fun l =>
      l.filter (fun m => !refersTo ns (suspendMiddlewareName r.name) m)) := by
    intro r
    simp [IngressRoute.effective, resumeRoute]
  rw [restored, resumed, effective_suspend, map_map]
  refine map_congr_left fun l _ => ?_
  simp only [Function.comp_apply]
  split
  · rfl
  · simp [refersTo, suspendRoute]

theorem shown_restored_iff (unmarked : ∀ e ∈ r.annotations.getD [], e.1 ≠ suspendedMarkerAnnotation) :
    (restored ns r).shown = r.shown ↔
      ∀ l ∈ r.effective, ∀ m ∈ l, refersTo ns (suspendMiddlewareName r.name) m = false := by
  have annotations : (restored ns r).annotations.getD [] = r.annotations.getD [] := by
    have absent : (r.annotations.getD []).any (·.1 == suspendedMarkerAnnotation) = false := by simpa using unmarked
    simpa [restored, resumeRoute, suspendRoute, absent] using unmarked
  have same : (restored ns r).shown = r.shown ↔ (restored ns r).effective = r.effective := by
    have name : (restored ns r).name = r.name := rfl
    simp [IngressRoute.shown, annotations, name]
  have each := @map_inj_left _ _ r.effective
    (fun l => l.filter (fun m => !refersTo ns (suspendMiddlewareName r.name) m)) id
  rw [map_id] at each
  rw [same, effective_restored, each]
  simp [filter_eq_self]

theorem replace_middle {f g h : IngressRoute → IngressRoute} (named : ∀ r, (f r).name = r.name ∧ (g r).name = r.name)
    (distinct : ((done ++ r :: rest).map (·.name)).Nodup) :
    write ⟨done.map f ++ g r :: rest.map g, deleted⟩ (.replaceIngressRoute r.name h) =
      ⟨done.map f ++ h (g r) :: rest.map g, deleted⟩ := by
  have others : ∀ q : IngressRoute, q ∈ done ∨ q ∈ rest → q.name ≠ r.name := by
    intro q other same
    rw [map_append, map_cons, nodup_append', nodup_cons] at distinct
    rcases other with before | after
    · exact distinct.2.2 (mem_map_of_mem before) (same ▸ mem_cons_self)
    · exact distinct.2.1.1 (same ▸ mem_map_of_mem after)
  have before : ∀ q ∈ done, (if (f q).name = r.name then h (f q) else f q) = f q :=
    fun q mem => if_neg ((named q).1 ▸ others q (.inl mem))
  have after : ∀ q ∈ rest, (if (g q).name = r.name then h (g q) else g q) = g q :=
    fun q mem => if_neg ((named q).2 ▸ others q (.inr mem))
  simp [write, Function.comp_def, (named r).2, map_congr_left before, map_congr_left after]

theorem suspended_run (named : ∀ r ∈ rest, r.name ≠ "" ∧ r.marked = false)
    (distinct : ((done ++ rest).map (·.name)).Nodup) : (run ⟨done.map (suspendRoute ns) ++ rest, deleted⟩
      (suspendNamespaceIngresses ns rest)).routes = (done ++ rest).map (suspendRoute ns) := by
  induction rest generalizing done deleted with
  | nil => simp [suspendNamespaceIngresses, run]
  | cons r rest ih =>
    obtain ⟨here, later⟩ := forall_mem_cons.mp named
    have writes : suspendNamespaceIngresses ns (r :: rest) = .applyMiddleware (suspendMiddlewareName r.name) ::
        .replaceIngressRoute r.name (suspendRoute ns) :: suspendNamespaceIngresses ns rest := by
      simp [suspendNamespaceIngresses, here]
    have replaced := @replace_middle r done rest (deleted.filter (· != suspendMiddlewareName r.name))
      (suspendRoute ns) id (suspendRoute ns) (fun _ => ⟨rfl, rfl⟩) distinct
    have next := @ih (done ++ [r]) (deleted.filter (· != suspendMiddlewareName r.name)) later (by simpa using distinct)
    simp only [map_id, id_eq] at replaced
    rw [writes, run, foldl_cons, foldl_cons, write, replaced]
    simpa [run] using next

theorem suspending_deleted (n : Nat) (s : Namespace) (none : s.deleted = []) :
    (run s ((suspendNamespaceIngresses ns routes).take n)).deleted = [] := by
  have kinds : ∀ w ∈ (suspendNamespaceIngresses ns routes).take n, ∀ t : Namespace,
      t.deleted = [] → (write t w).deleted = [] := by
    intro w mem t none
    obtain ⟨r, _, written⟩ := mem_flatMap.mp (mem_of_mem_take mem)
    split at written
    · cases written
    · rcases mem_cons.mp written with rfl | last
      · simp [write, none]
      · rw [mem_singleton.mp last]
        exact none
  revert kinds none
  generalize (suspendNamespaceIngresses ns routes).take n = writes
  intro none kinds
  induction writes generalizing s with
  | nil => exact none
  | cons w rest ih =>
    obtain ⟨here, later⟩ := forall_mem_cons.mp kinds
    exact ih (write s w) (here s none) later

/- the resumption with some routes done, of which the Middlewares are deleted -/
def resuming (ns : String) (done rest : List IngressRoute) (deleted : List String) : Namespace :=
  ⟨done.map (restored ns) ++ rest.map (suspendRoute ns), deleted⟩

theorem suspend_marked (unmarked : ∀ e ∈ r.annotations.getD [], e.1 ≠ suspendedMarkerAnnotation) :
    (suspendRoute ns r).marked = true := by
  have absent : (r.annotations.getD []).any (·.1 == suspendedMarkerAnnotation) = false := by simpa using unmarked
  have missing : (r.annotations.getD []).lookup suspendedMarkerAnnotation = none :=
    lookup_eq_none_iff.mpr fun e mem => by simpa using (unmarked e mem).symm
  simp [IngressRoute.marked, suspendRoute, absent, lookup_append, missing]

/- listed routes have names, and none of these is suspended yet -/
def Fresh (r : IngressRoute) : Prop := r.name ≠ "" ∧ ∀ e ∈ r.annotations.getD [], e.1 ≠ suspendedMarkerAnnotation

section resumption

variable (distinct : ((done ++ r :: rest).map (·.name)).Nodup) (fresh : Fresh r)

include distinct in
theorem resuming_replaced : write (resuming ns done (r :: rest) deleted) (.replaceIngressRoute r.name (resumeRoute ns)) =
    resuming ns (done ++ [r]) rest deleted := by
  have replaced := @replace_middle r done rest deleted (restored ns) (suspendRoute ns) (resumeRoute ns)
    (fun _ => ⟨rfl, rfl⟩) distinct
  simpa [resuming, restored] using replaced

include fresh in
theorem resume_writes : resumeNamespaceIngresses ns ((r :: rest).map (suspendRoute ns)) =
    .replaceIngressRoute r.name (resumeRoute ns) :: .deleteMiddleware (suspendMiddlewareName r.name) ::
      resumeNamespaceIngresses ns (rest.map (suspendRoute ns)) := by
  have named : (suspendRoute ns r).name = r.name := rfl
  simp [resumeNamespaceIngresses, suspend_marked fresh.2, named, fresh.1]

end resumption

theorem resuming_run (fresh : ∀ r ∈ mid, Fresh r) (distinct : ((done ++ (mid ++ rest)).map (·.name)).Nodup) :
    run (resuming ns done (mid ++ rest) deleted) (resumeNamespaceIngresses ns (mid.map (suspendRoute ns))) =
      resuming ns (done ++ mid) rest ((mid.map (fun r => suspendMiddlewareName r.name)).reverse ++ deleted) := by
  induction mid generalizing done deleted with
  | nil => simp [resumeNamespaceIngresses, run]
  | cons r mid ih =>
    obtain ⟨here, later⟩ := forall_mem_cons.mp fresh
    have next := @ih (done ++ [r]) (suspendMiddlewareName r.name :: deleted) later (by simpa using distinct)
    rw [cons_append] at distinct ⊢
    rw [resume_writes here, run, foldl_cons, foldl_cons, resuming_replaced distinct]
    simpa [run, resuming, write] using next

theorem resuming_sound (apart : Apart ns (done ++ rest)) (within : ∀ name ∈ deleted,
    ∃ i ∈ done, suspendMiddlewareName i.name = name) : (resuming ns done rest deleted).Sound ns := by
  obtain ⟨free, unshared⟩ := apart
  have original : ∀ r ∈ done ++ rest, ∀ l ∈ r.effective, ∀ m ∈ l, m.namespace_.getD ns = ns → m.name ∉ deleted := by
    intro r mem l memL m memM here gone
    obtain ⟨i, memI, same⟩ := within _ gone
    have other := free i (mem_append_left _ memI) r mem l memL m memM
    simp [refersTo, here, same] at other
  intro r mem l memL m memM here
  rcases mem_append.mp mem with before | after
  · obtain ⟨q, memQ, rfl⟩ := mem_map.mp before
    rw [effective_restored] at memL
    obtain ⟨l', there, rfl⟩ := mem_map.mp memL
    exact original q (mem_append_left _ memQ) l' there m (mem_of_mem_filter memM) here
  obtain ⟨q, memQ, rfl⟩ := mem_map.mp after
  rw [effective_suspend] at memL
  obtain ⟨l', there, rfl⟩ := mem_map.mp memL
  split at memM
  · exact original q (mem_append_right _ memQ) l' there m memM here
  rcases mem_cons.mp memM with rfl | old
  · intro gone
    obtain ⟨i, memI, same⟩ := within _ gone
    have empty := (pairwise_append.mp unshared).2.2 i memI q memQ same
    rw [empty] at there
    cases there
  · exact original q (mem_append_right _ memQ) l' there m old here

theorem resuming_prefix_sound (fresh : ∀ r ∈ rest, Fresh r) (distinct : ((done ++ rest).map (·.name)).Nodup)
    (apart : Apart ns (done ++ rest)) (within : ∀ name ∈ deleted, ∃ i ∈ done, suspendMiddlewareName i.name = name)
    (n : Nat) : (run (resuming ns done rest deleted)
      ((resumeNamespaceIngresses ns (rest.map (suspendRoute ns))).take n)).Sound ns := by
  induction rest generalizing done deleted n with
  | nil => simpa [resumeNamespaceIngresses, run] using resuming_sound apart within
  | cons r rest ih =>
    obtain ⟨here, later⟩ := forall_mem_cons.mp fresh
    have onward : ∀ name ∈ deleted, ∃ i ∈ done ++ [r], suspendMiddlewareName i.name = name := by
      intro name mem
      obtain ⟨i, memI, same⟩ := within name mem
      exact ⟨i, mem_append_left _ memI, same⟩
    rw [resume_writes here]
    match n with
    | 0 => exact resuming_sound apart within
    | 1 =>
      rw [take_succ_cons, take_zero, run, foldl_cons, foldl_nil, resuming_replaced distinct]
      exact resuming_sound (by simpa using apart) onward
    | n + 2 =>
      rw [take_succ_cons, take_succ_cons, run, foldl_cons, foldl_cons, resuming_replaced distinct]
      refine @ih (done ++ [r]) (suspendMiddlewareName r.name :: deleted) later (by simpa using distinct)
        (by simpa using apart) ?_ n
      exact forall_mem_cons.mpr ⟨⟨r, mem_append_right _ mem_cons_self, rfl⟩, onward⟩

theorem apart_of_resuming
    (own : ∀ r ∈ routes, ∀ l ∈ r.effective, ∀ m ∈ l, refersTo ns (suspendMiddlewareName r.name) m = false)
    (midway : ∀ k, (resuming ns (routes.take k) (routes.drop k)
      ((routes.take k).map (fun r => suspendMiddlewareName r.name)).reverse).Sound ns) : Apart ns routes := by
  have deleted : ∀ i (bound : i < routes.length), suspendMiddlewareName routes[i].name ∈
      ((routes.take (i + 1)).map (fun r => suspendMiddlewareName r.name)).reverse := fun i bound =>
    mem_reverse.mpr (mem_map_of_mem (mem_take_iff_getElem.mpr ⟨i, by omega, rfl⟩))
  refine ⟨fun i memI r mem l memL m memM => ?_, pairwise_iff_getElem.mpr fun i j bound bound' before shared => ?_⟩
  · by_contra refers
    obtain ⟨k, bound, rfl⟩ := getElem_of_mem memI
    simp only [refersTo, Bool.not_eq_false, Bool.and_eq_true, beq_iff_eq] at refers
    have gone := refers.1 ▸ deleted k bound
    rw [← take_append_drop (k + 1) routes] at mem
    rcases mem_append.mp mem with done | left
    · have plain : l.filter (fun m => !refersTo ns (suspendMiddlewareName r.name) m) = l := by
        simpa [filter_eq_self] using own r (mem_of_mem_take done) l memL
      have kept : l ∈ (restored ns r).effective := effective_restored ▸ mem_map.mpr ⟨l, memL, plain⟩
      exact midway (k + 1) _ (mem_append_left _ (mem_map_of_mem done)) l kept m memM refers.2 gone
    have there := midway (k + 1) _ (mem_append_right _ (mem_map_of_mem left)) _
      (effective_suspend ▸ mem_map_of_mem memL) m
    refine there ?_ refers.2 gone
    split
    · exact memM
    · exact mem_cons_of_mem _ memM
  · by_contra entries
    obtain ⟨l, memL⟩ := exists_mem_of_ne_nil _ entries
    have left : routes[j] ∈ routes.drop (i + 1) := mem_drop_iff_getElem.mpr ⟨j - (i + 1), by omega, by congr 1; omega⟩
    have none : l.any (refersTo ns (suspendMiddlewareName routes[j].name)) = false := by
      simpa using own routes[j] (getElem_mem bound') l memL
    have added : (⟨suspendMiddlewareName routes[j].name, some ns⟩ :: l) ∈ (suspendRoute ns routes[j]).effective :=
      effective_suspend ▸ mem_map.mpr ⟨l, memL, by simp [none]⟩
    exact midway (i + 1) _ (mem_append_right _ (mem_map_of_mem left)) _ added _ mem_cons_self rfl
      (shared ▸ deleted i bound)

/-- A suspension that is ended again leaves no trace, and no reference to a deleted Middleware on the way, if and only
if no list refers to the Middlewares and no two routes with entries share one. -/
theorem suspension_undone_iff (fresh : ∀ r ∈ routes, Fresh r) (distinct : (routes.map (·.name)).Nodup) :
    Undone ns routes ↔ Apart ns routes := by
  have unmarked : ∀ r ∈ routes, r.name ≠ "" ∧ r.marked = false := by
    intro r mem
    refine ⟨(fresh r mem).1, ?_⟩
    have missing : (r.annotations.getD []).lookup suspendedMarkerAnnotation = none :=
      lookup_eq_none_iff.mpr fun e there => by simpa using ((fresh r mem).2 e there).symm
    simp [IngressRoute.marked, missing]
  have suspended : run ⟨routes, []⟩ (suspendNamespaceIngresses ns routes) = resuming ns [] routes [] := by
    have up := @suspended_run ns [] routes [] unmarked distinct
    have none := @suspending_deleted ns routes (suspendNamespaceIngresses ns routes).length ⟨routes, []⟩ rfl
    rw [take_length] at none
    revert up none
    generalize suspendNamespaceIngresses ns routes = writes
    simp only [map_nil, nil_append, resuming]
    rcases run ⟨routes, []⟩ writes with ⟨found, left⟩
    rintro rfl rfl
    rfl
  have writes : roundTrip ns routes =
      suspendNamespaceIngresses ns routes ++ resumeNamespaceIngresses ns (routes.map (suspendRoute ns)) := by
    rw [roundTrip, suspended]
    rfl
  have ended := @resuming_run ns [] [] routes [] fresh (by simpa using distinct)
  rw [append_nil] at ended
  have last : (run ⟨routes, []⟩ (roundTrip ns routes)).routes.map IngressRoute.shown = routes.map IngressRoute.shown ↔
      ∀ r ∈ routes, ∀ l ∈ r.effective, ∀ m ∈ l, refersTo ns (suspendMiddlewareName r.name) m = false := by
    rw [writes, run_append, suspended, ended]
    simp only [resuming, nil_append, map_nil, append_nil, map_map, map_inj_left, Function.comp_apply]
    exact forall₂_congr fun r mem => shown_restored_iff (fresh r mem).2
  constructor
  · rintro ⟨same, sound⟩
    have own := last.mp same
    have midway : ∀ k, (resuming ns (routes.take k) (routes.drop k)
        ((routes.take k).map (fun r => suspendMiddlewareName r.name)).reverse).Sound ns := by
      intro k
      have reached := @resuming_run ns [] (routes.drop k) (routes.take k) [] (fun r mem => fresh r (mem_of_mem_take mem))
        (by simpa using distinct)
      have here := sound (suspendNamespaceIngresses ns routes ++
        resumeNamespaceIngresses ns ((routes.take k).map (suspendRoute ns))).length
      have whole : resumeNamespaceIngresses ns (routes.map (suspendRoute ns)) =
          resumeNamespaceIngresses ns ((routes.take k).map (suspendRoute ns)) ++
            resumeNamespaceIngresses ns ((routes.drop k).map (suspendRoute ns)) := by
        rw [resumeNamespaceIngresses, resumeNamespaceIngresses, resumeNamespaceIngresses, ← flatMap_append, ← map_append,
          take_append_drop]
      rw [take_append_drop] at reached
      rw [writes, whole, ← append_assoc, take_left, run_append, suspended, reached] at here
      simpa using here
    exact apart_of_resuming own midway
  · intro apart
    refine ⟨last.mpr fun r mem => apart.1 r mem r mem, fun n => ?_⟩
    rw [writes, take_append, run_append]
    by_cases up : n ≤ (suspendNamespaceIngresses ns routes).length
    · rw [Nat.sub_eq_zero_of_le up, take_zero]
      intro r mem l memL m memM here
      rw [run, foldl_nil, suspending_deleted n ⟨routes, []⟩ rfl]
      exact not_mem_nil
    · rw [take_of_length_le (Nat.le_of_not_le up), suspended]
      exact @resuming_prefix_sound ns [] routes [] fresh distinct apart (fun _ none => absurd none not_mem_nil) _

theorem suspension_undone_twice : Undone "t" [⟨"shop-web", none, some [none]⟩, ⟨"mail-web", none, some [some []]⟩] :=
  (suspension_undone_iff (by simp [Fresh]) (by decide)).mpr ⟨by decide, by decide⟩

/-- Two routes of one application share their first characters: the end of the first one's suspension deletes the
Middleware that the second one still refers to. -/
theorem shared_middleware_deleted : ¬ Undone "t" [⟨"wordpress-a", none, some [none]⟩, ⟨"wordpress-b", none, some [none]⟩] := by
  rintro ⟨_, sound⟩
  exact absurd (sound 6 _ (mem_cons_of_mem _ mem_cons_self) _ mem_cons_self _ mem_cons_self rfl) (by decide)

end HostingPlatform.TenantLifecycle.IngressSuspend
