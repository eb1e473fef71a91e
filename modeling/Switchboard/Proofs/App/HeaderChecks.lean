import Switchboard.Proofs.App.Sequence
import Switchboard.Proofs.Handling.Passage

set_option autoImplicit false

/-! # Which requests header checks let through

Checks are asked in order. One without values lets the next one decide if its header is not empty,
one with values admits the request if its header is among them; any other outcome refuses it. On a
route they stand inside all middlewares (`Route.guarded_by_checks`).

A header that is absent, empty or not to be shown as text is the same to a check, so that a header
which is there can be refused as missing, and one which is not can be accepted
(`absent_like_empty`).
-/

namespace Switchboard

namespace HeaderCheck

variable {c : HeaderCheck} {checks front back : List HeaderCheck} {request : Request} {i : Nat}

/-! ## What a check looks at -/

/-- The request has a field of the name that a check asks for. -/
def IsCarried (c : HeaderCheck) (request : Request) : Prop :=
  ∃ n, Headers.name? c.key = some n ∧ ∃ f ∈ request.headers, f.1 = n

/-- The field is the first of the name that a check asks for. -/
def IsFirst (c : HeaderCheck) (request : Request) (v : String) : Prop :=
  ∃ n before after, Headers.name? c.key = some n ∧
    request.headers = before ++ (n, v) :: after ∧ ∀ f ∈ before, f.1 ≠ n

/-- The value of a check: the first one of the field, if it consists of characters that can be
shown, spaces and tabs, and otherwise nothing. -/
inductive Reads (c : HeaderCheck) (request : Request) : String → Prop
  | shown {v : String} : c.IsFirst request v →
      (∀ x ∈ v.toList, x = '\t' ∨ ' ' ≤ x ∧ x ≤ '~') → Reads c request v
  | hidden {v : String} : c.IsFirst request v →
      ¬ (∀ x ∈ v.toList, x = '\t' ∨ ' ' ≤ x ∧ x ≤ '~') → Reads c request ""
  | absent : ¬ c.IsCarried request → Reads c request ""

theorem first?_eq_some_iff {v : String} :
    request.headers.first? c.key = some v ↔ c.IsFirst request v := by
  rw [Headers.first?, Option.bind_eq_some_iff]
  constructor
  · rintro ⟨n, hn, hlookup⟩
    obtain ⟨before, after, hheaders, hbefore⟩ := List.lookup_eq_some_iff.1 hlookup
    refine ⟨n, before, after, hn, hheaders, ?_⟩
    intro f hf hname
    have hne := hbefore f hf
    rw [hname, bne_self_eq_false] at hne
    cases hne
  · rintro ⟨n, before, after, hn, hheaders, hbefore⟩
    refine ⟨n, hn, List.lookup_eq_some_iff.2 ⟨before, after, hheaders, ?_⟩⟩
    intro f hf
    exact bne_iff_ne.2 (Ne.symm (hbefore f hf))

theorem first?_eq_none_iff : request.headers.first? c.key = none ↔ ¬ c.IsCarried request := by
  rw [Headers.first?, IsCarried]
  cases Headers.name? c.key with
  | none => simp
  | some n =>
      rw [Option.bind_some, List.lookup_eq_none_iff]
      constructor
      · rintro hnone ⟨n', hn, f, hf, hname⟩
        obtain rfl := Option.some.inj hn
        have hne := hnone f hf
        rw [hname, bne_self_eq_false] at hne
        cases hne
      · intro hnone f hf
        exact bne_iff_ne.2 fun hname => hnone ⟨n, rfl, f, hf, hname.symm⟩

theorem isVisible_iff {v : String} :
    Headers.isVisible v ↔ ∀ x ∈ v.toList, x = '\t' ∨ ' ' ≤ x ∧ x ≤ '~' := by
  have hchar : ∀ x : Char, (0x20 ≤ x.toNat ∧ x.toNat < 0x7F) ↔ ' ' ≤ x ∧ x ≤ '~' := by
    intro x
    rw [Char.le_def, Char.le_def, UInt32.le_iff_toNat_le, UInt32.le_iff_toNat_le]
    show _ ↔ 0x20 ≤ x.toNat ∧ x.toNat ≤ 0x7E
    omega
  simp only [Headers.isVisible, List.all_eq_true, Bool.or_eq_true, Bool.and_eq_true,
    decide_eq_true_eq, hchar]

theorem value_of_isFirst {v : String} (h : c.IsFirst request v) :
    c.value request = if Headers.isVisible v then v else "" := by
  rw [value, Headers.visible?, first?_eq_some_iff.2 h]
  by_cases hv : Headers.isVisible v
  · rw [if_pos hv, Option.filter_some_pos hv]
    rfl
  · rw [if_neg hv, Option.filter_some_neg (by simpa using hv)]
    rfl

theorem value_of_not_isCarried (h : ¬ c.IsCarried request) : c.value request = "" := by
  rw [value, Headers.visible?, first?_eq_none_iff.2 h]
  rfl

theorem isFirst_or_not_isCarried (c : HeaderCheck) (request : Request) :
    (∃ v, c.IsFirst request v) ∨ ¬ c.IsCarried request := by
  cases h : request.headers.first? c.key with
  | none => exact .inr (first?_eq_none_iff.1 h)
  | some v => exact .inl ⟨v, first?_eq_some_iff.1 h⟩

theorem reads_value (c : HeaderCheck) (request : Request) : c.Reads request (c.value request) := by
  rcases isFirst_or_not_isCarried c request with ⟨v, hfirst⟩ | habsent
  · rw [value_of_isFirst hfirst]
    by_cases hv : Headers.isVisible v
    · rw [if_pos hv]
      exact .shown hfirst (isVisible_iff.1 hv)
    · rw [if_neg hv]
      exact .hidden hfirst (mt isVisible_iff.2 hv)
  · rw [value_of_not_isCarried habsent]
    exact .absent habsent

/-- What counts as no header: none at all, or one whose first value is empty or cannot be shown. -/
theorem value_eq_empty_iff : c.value request = "" ↔
    ¬ c.IsCarried request ∨ ∃ v, c.IsFirst request v ∧ (v = "" ∨ ¬ Headers.isVisible v) := by
  constructor
  · intro hempty
    rcases isFirst_or_not_isCarried c request with ⟨v, hfirst⟩ | habsent
    · rw [value_of_isFirst hfirst] at hempty
      refine .inr ⟨v, hfirst, ?_⟩
      by_cases hv : Headers.isVisible v
      · rw [if_pos hv] at hempty
        exact .inl hempty
      · exact .inr hv
    · exact .inl habsent
  · rintro (habsent | ⟨v, hfirst, hv⟩)
    · exact value_of_not_isCarried habsent
    · rw [value_of_isFirst hfirst]
      rcases hv with rfl | hv
      · exact ite_self ""
      · exact if_neg hv

/-! ## Single checks -/

/-- The check leaves it to the next one. -/
def PassesOn (c : HeaderCheck) (request : Request) : Prop :=
  c.values = [] ∧ c.value request ≠ ""

/-- The check admits the request by itself. -/
def Admits (c : HeaderCheck) (request : Request) : Prop := c.value request ∈ c.values

/-- The check refuses the request. -/
def Refuses (c : HeaderCheck) (request : Request) : Prop :=
  ¬ c.PassesOn request ∧ ¬ c.Admits request

/-- What a check says when it refuses a request. -/
def complaint (c : HeaderCheck) (request : Request) : String :=
  if c.values = [] then s!"missing the header '{c.key}'"
  else s!"invalid header '{c.key}: {c.value request}'"

theorem run_cons_of_passesOn (h : c.PassesOn request) :
    run request (c :: back) = run request back := by
  obtain ⟨hvalues, hvalue⟩ := h
  have hempty : ¬ (c.value request).isEmpty := by
    rwa [String.isEmpty_iff]
  simp [run, hvalues, hempty]

theorem run_cons_of_admits (h : c.Admits request) : run request (c :: back) = .ok () := by
  have hvalues : c.values.isEmpty = false := by
    rw [List.isEmpty_eq_false_iff]
    exact List.ne_nil_of_mem h
  have hmem : c.value request ∈ c.values := h
  simp [run, hvalues, hmem]

theorem run_cons_of_refuses (h : c.Refuses request) :
    run request (c :: back) = .error (.badRequest (c.complaint request)) := by
  obtain ⟨hnext, hadmits⟩ := h
  by_cases hvalues : c.values = []
  · have hempty : c.value request = "" := Decidable.byContradiction fun hne => hnext ⟨hvalues, hne⟩
    simp [run, complaint, hvalues, hempty, missing]
  · have hmem : c.value request ∉ c.values := hadmits
    simp [run, complaint, hvalues, hmem, mismatch]

/-! ## Lists of checks -/

theorem run_append_of_passesOn (h : ∀ d ∈ front, d.PassesOn request) (back : List HeaderCheck) :
    run request (front ++ back) = run request back := by
  induction front with
  | nil => rfl
  | cons d front ih =>
      obtain ⟨hd, hfront⟩ := List.forall_mem_cons.1 h
      rw [List.cons_append, run_cons_of_passesOn hd, ih hfront]

/-- The check at one place is asked: all before it leave it to the next one. -/
def AskedAt (request : Request) (checks : List HeaderCheck) (i : Nat) : Prop :=
  i ≤ checks.length ∧ ∀ d ∈ checks.take i, d.PassesOn request

/-- The request is let through at one place, by the check there or because there is none left. -/
def LetThroughAt (request : Request) (checks : List HeaderCheck) (i : Nat) : Prop :=
  AskedAt request checks i ∧ ∀ c, checks[i]? = some c → c.Admits request

/-- The check at one place is the first that refuses the request. -/
def RefusedAt (request : Request) (checks : List HeaderCheck) (i : Nat) (c : HeaderCheck) : Prop :=
  AskedAt request checks i ∧ checks[i]? = some c ∧ c.Refuses request

theorem askedAt_zero (request : Request) (checks : List HeaderCheck) :
    AskedAt request checks 0 := by
  refine ⟨Nat.zero_le _, ?_⟩
  intro d hd
  cases hd

theorem run_of_askedAt (h : AskedAt request checks i) :
    run request checks = run request (checks.drop i) := by
  calc run request checks = run request (checks.take i ++ checks.drop i) := by
        rw [List.take_append_drop]
    _ = run request (checks.drop i) := run_append_of_passesOn h.2 _

theorem run_of_letThroughAt (h : LetThroughAt request checks i) : run request checks = .ok () := by
  rw [run_of_askedAt h.1]
  cases hi : checks[i]? with
  | none =>
      rw [List.drop_eq_nil_of_le (List.getElem?_eq_none_iff.1 hi)]
      rfl
  | some c =>
      obtain ⟨hlt, rfl⟩ := List.getElem?_eq_some_iff.1 hi
      rw [List.drop_eq_getElem_cons hlt]
      exact run_cons_of_admits (h.2 _ hi)

theorem run_of_refusedAt (h : RefusedAt request checks i c) :
    run request checks = .error (.badRequest (c.complaint request)) := by
  obtain ⟨hasked, hi, hrefuses⟩ := h
  obtain ⟨hlt, rfl⟩ := List.getElem?_eq_some_iff.1 hi
  rw [run_of_askedAt hasked, List.drop_eq_getElem_cons hlt]
  exact run_cons_of_refuses hrefuses

/-- Every request is let through or refused somewhere. -/
theorem letThroughAt_or_refusedAt (request : Request) (checks : List HeaderCheck) :
    (∃ i, LetThroughAt request checks i) ∨ ∃ i c, RefusedAt request checks i c := by
  induction checks with
  | nil =>
      refine .inl ⟨0, askedAt_zero request [], ?_⟩
      intro c hc
      cases hc
  | cons c rest ih =>
      have hfirst := askedAt_zero request (c :: rest)
      by_cases hadmits : c.Admits request
      · refine .inl ⟨0, hfirst, ?_⟩
        intro d hd
        obtain rfl := Option.some.inj hd
        exact hadmits
      by_cases hnext : c.PassesOn request
      · -- the check decides nothing, so what happens later happens one place further on
        have hlater : ∀ i, AskedAt request rest i → AskedAt request (c :: rest) (i + 1) := by
          intro i hi
          refine ⟨Nat.succ_le_succ hi.1, ?_⟩
          rw [List.take_succ_cons]
          exact List.forall_mem_cons.2 ⟨hnext, hi.2⟩
        rcases ih with ⟨i, hasked, hat⟩ | ⟨i, d, hasked, hat⟩
        · exact .inl ⟨i + 1, hlater i hasked, hat⟩
        · exact .inr ⟨i + 1, d, hlater i hasked, hat⟩
      · exact .inr ⟨0, c, hfirst, rfl, hnext, hadmits⟩

-- The second check would refuse the request, but it is not asked.
example : run { uri := ⟨none, none, "/key", none⟩, headers := [("x-mode", "fast")] }
    [⟨"x-mode", ["fast"]⟩, ⟨"x-required", []⟩] = .ok () := rfl

/-- No request is both. -/
theorem not_letThroughAt_of_refusedAt (h : RefusedAt request checks i c) :
    ¬ ∃ j, LetThroughAt request checks j := by
  rintro ⟨j, hlet⟩
  have hrun := run_of_refusedAt h
  rw [run_of_letThroughAt hlet] at hrun
  cases hrun

/-- The checks behind one that admits a request may be any. -/
theorem LetThroughAt.take_append (h : LetThroughAt request checks i) (hlt : i < checks.length)
    (others : List HeaderCheck) : LetThroughAt request (checks.take (i + 1) ++ others) i := by
  obtain ⟨⟨-, hbefore⟩, hat⟩ := h
  have hlen : (checks.take (i + 1)).length = i + 1 := List.length_take_of_le hlt
  have htake : (checks.take (i + 1) ++ others).take i = checks.take i := by
    rw [List.take_append_of_le_length (by omega), List.take_take, Nat.min_eq_left (by omega)]
  have hget : (checks.take (i + 1) ++ others)[i]? = checks[i]? := by
    rw [List.getElem?_append_left (by omega), List.getElem?_take_of_lt (Nat.lt_succ_self i)]
  refine ⟨⟨?_, ?_⟩, ?_⟩
  · rw [List.length_append]
    omega
  · rw [htake]
    exact hbefore
  · rw [hget]
    exact hat

theorem middleware_wrap_of_letThroughAt {ctx : Context}
    (hlet : LetThroughAt ctx.request checks i) (h : Handler) :
    (middleware checks).wrap h ctx = h ctx := by
  simp only [middleware, run_of_letThroughAt hlet]

theorem middleware_wrap_of_refusedAt {ctx : Context}
    (hrefused : RefusedAt ctx.request checks i c) (h : Handler) :
    (middleware checks).wrap h ctx =
      .done (.error (.status .badRequest (c.complaint ctx.request))) := by
  simp only [middleware, run_of_refusedAt hrefused]
  rfl

/-! ## What is missing and what is there -/

/-- A check without values that is asked refuses the request not only if the header is absent, but
also if its first value is empty or cannot be shown. And a check with values that is asked accepts
requests without the header if the empty text is one of its values. -/
theorem absent_like_empty (request : Request) (checks : List HeaderCheck) (i : Nat)
    (c : HeaderCheck) (hasked : AskedAt request checks i) (hat : checks[i]? = some c) :
    (c.values = [] → (RefusedAt request checks i c ↔
        ¬ c.IsCarried request ∨ ∃ v, c.IsFirst request v ∧ (v = "" ∨ ¬ Headers.isVisible v))) ∧
      (c.values ≠ [] → ¬ c.IsCarried request →
        (LetThroughAt request checks i ↔ "" ∈ c.values)) ∧
      (RefusedAt request checks i c →
        run request checks = .error (.badRequest (c.complaint request))) ∧
      (LetThroughAt request checks i → run request checks = .ok ()) := by
  refine ⟨?_, ?_, run_of_refusedAt, run_of_letThroughAt⟩
  · intro hvalues
    rw [← value_eq_empty_iff]
    constructor
    · rintro ⟨-, -, hnext, -⟩
      exact Decidable.byContradiction fun hne => hnext ⟨hvalues, hne⟩
    · intro hempty
      refine ⟨hasked, hat, fun hnext => hnext.2 hempty, ?_⟩
      rw [Admits, hvalues]
      exact List.not_mem_nil
  · intro _ habsent
    rw [← value_of_not_isCarried habsent]
    constructor
    · intro hlet
      exact hlet.2 c hat
    · intro hmem
      refine ⟨hasked, fun d hd => ?_⟩
      obtain rfl := Option.some.inj (hat.symm.trans hd)
      exact hmem

/-- The second check of the list is asked, and takes a request without its header. -/
theorem absent_like_empty_second_check :
    let request : Request :=
      { uri := ⟨none, none, "/a", none⟩, headers := [("x-key", "k"), ("accept", "*/*")] }
    let checks : List HeaderCheck := [⟨"x-key", []⟩, ⟨"x-mode", ["fast", ""]⟩]
    (AskedAt request checks 1 ∧ checks[1]? = some ⟨"x-mode", ["fast", ""]⟩) ∧
      ¬ IsCarried ⟨"x-mode", ["fast", ""]⟩ request ∧ run request checks = .ok () := by
  intro request checks
  have hasked : AskedAt request checks 1 := by
    refine ⟨by decide, ?_⟩
    intro d hd
    obtain rfl := List.mem_singleton.1 hd
    exact ⟨rfl, by decide⟩
  have habsent : ¬ IsCarried ⟨"x-mode", ["fast", ""]⟩ request := first?_eq_none_iff.1 (by decide)
  obtain ⟨-, hvalues, -, hok⟩ := absent_like_empty request checks 1 _ hasked rfl
  exact ⟨⟨hasked, rfl⟩, habsent, hok ((hvalues (by decide) habsent).2 (by decide))⟩

/-- A header that is there, but empty, is refused as missing, and one that is not there is accepted
by a check whose value is the empty text. -/
theorem empty_refused_absent_accepted :
    let request (headers : Headers) : Request := { uri := ⟨none, none, "/a", none⟩, headers }
    (IsCarried ⟨"x-key", []⟩ (request [("x-key", "")]) ∧
      RefusedAt (request [("x-key", "")]) [⟨"x-key", []⟩] 0 ⟨"x-key", []⟩) ∧
    ¬ IsCarried ⟨"x-key", [""]⟩ (request []) ∧
      LetThroughAt (request []) [⟨"x-key", [""]⟩] 0 := by
  intro request
  refine ⟨⟨?_, ?_⟩, ?_, ?_⟩
  · exact ⟨"x-key", by decide, ("x-key", ""), List.mem_singleton_self _, rfl⟩
  · refine ⟨askedAt_zero _ _, rfl, ?_, List.not_mem_nil⟩
    rintro ⟨-, hvalue⟩
    exact hvalue (by decide)
  · exact first?_eq_none_iff.1 (by decide)
  · refine ⟨askedAt_zero _ _, ?_⟩
    intro c hc
    obtain rfl := Option.some.inj hc
    show HeaderCheck.value (request []) ⟨"x-key", [""]⟩ ∈ [""]
    decide

end HeaderCheck

/-! ## Routes -/

namespace Route

open HeaderCheck

/-- The check of the headers is the innermost part of the chain. -/
theorem compose_chain (r : Route) (h : Handler) :
    h.compose r.chain = ((HeaderCheck.middleware r.checks).wrap h).compose r.middlewares := by
  rw [chain]
  split
  · next hempty =>
    rw [List.isEmpty_iff.1 hempty]
    rfl
  · rw [Handler.compose_append]
    rfl

/-- What a route registers is its handler behind the checks, inside all its middlewares. Of the
requests that reach the checks it is called for those that are let through somewhere, whatever the
checks after that place are; for all others the reply is the complaint of the first check that
refuses, which leaves through all middlewares that the request has passed. -/
theorem guarded_by_checks (r : Route) (h : Handler) :
    let gate := (HeaderCheck.middleware r.checks).wrap h
    (∀ (app after : App) (name path : String) (methods : List Method),
      app.perform (r.registerAs name path h methods) = (.ok (), after) →
      app.Took (methods.map fun method =>
        { name, host := r.host, path, method, handler := gate.compose r.middlewares }) after) ∧
    (∀ (c : HeaderCheck) (request : Request), c.Reads request (c.value request)) ∧
    (∀ ctx : Context,
      (∃ i, LetThroughAt ctx.request r.checks i) ∧ gate ctx = h ctx ∨
      (¬ ∃ i, LetThroughAt ctx.request r.checks i) ∧
        ∃ i c, RefusedAt ctx.request r.checks i c ∧
          gate ctx = .done (.error (.status .badRequest (c.complaint ctx.request)))) ∧
    (∀ (ctx : Context) (i : Nat), i < r.checks.length → LetThroughAt ctx.request r.checks i →
      ∀ others, (HeaderCheck.middleware (r.checks.take (i + 1) ++ others)).wrap h ctx = h ctx) ∧
    ∀ stages : List Stage, r.middlewares.map (·.wrap) = stages.map (·.middleware.wrap) →
      (∀ ctx, gate.compose r.middlewares ctx =
        Passage.through stages ctx >>= fun p => p.inside gate >>= p.unwind) ∧
      ∀ (p : Passage) (inner : Context) (i : Nat) (c : HeaderCheck), p.arrival = .ok inner →
        RefusedAt inner.request r.checks i c →
        p.inside gate >>= p.unwind =
          p.unwind (.error (.status .badRequest (c.complaint inner.request))) := by
  intro gate
  refine ⟨?_, reads_value, ?_, ?_, ?_⟩
  · -- the checks are the last part of the chain, next to the handler
    intro app after name path methods hok
    have htook := r.took_of_registerAs hok
    rw [infos, compose_chain] at htook
    exact htook
  · intro ctx
    rcases letThroughAt_or_refusedAt ctx.request r.checks with ⟨i, hlet⟩ | ⟨i, c, hrefused⟩
    · exact .inl ⟨⟨i, hlet⟩, middleware_wrap_of_letThroughAt hlet h⟩
    · exact .inr ⟨not_letThroughAt_of_refusedAt hrefused, i, c, hrefused,
        middleware_wrap_of_refusedAt hrefused h⟩
  · intro ctx i hlt hlet others
    exact middleware_wrap_of_letThroughAt (hlet.take_append hlt others) h
  · intro stages hwrap
    refine ⟨?_, ?_⟩
    · intro ctx
      rw [← Handler.compose_stages]
      refine congrFun (Handler.compose_congr gate ?_) ctx
      rw [hwrap, List.map_map]
      rfl
    · intro p inner i c harrival hrefused
      have hinside : p.inside gate = gate inner := by
        rw [Passage.inside, harrival]
      have hgate := middleware_wrap_of_refusedAt hrefused h
      rw [hinside, show gate inner = _ from hgate]
      rfl

end Route

end Switchboard
