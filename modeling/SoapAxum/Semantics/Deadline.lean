import Mathlib.Data.ENat.Lattice
import SoapAxum.Semantics.Coroutine

/-! How often a computation is found suspended, and what a deadline makes of it. -/
namespace SoapAxum.Semantics.Coroutine

variable {ε α β : Type}

/-- How often the computation is found suspended before it returns. -/
def suspensions : Coroutine ε α → ℕ∞
  | done _ => 0
  | emit _ p => p.suspensions
  | pending p => p.suspensions+1
  | stalled => ⊤

@[simp] theorem suspensions_pure (a : α) : (pure a : Coroutine ε α).suspensions = 0 := rfl
@[simp] theorem suspensions_report (e : ε) : (report e).suspensions = 0 := rfl

@[simp] theorem suspensions_reportAll (es : List ε) : (reportAll es).suspensions = 0 := by
  induction es with
  | nil => rfl
  | cons e es ih => exact ih

@[simp] theorem suspensions_await (p : Future α) :
    (await p : Coroutine ε α).suspensions = p.suspensions := by
  induction p with
  | done a => rfl
  | emit e p ih => exact e.elim
  | pending p ih => exact congrArg (·+1) ih
  | stalled => rfl

/-- Only a computation that never returns is suspended without end. -/
theorem suspensions_eq_top {p : Coroutine ε α} : p.suspensions = ⊤ ↔ p.value = none := by
  induction p with
  | done a => simp [suspensions,value]
  | emit e p ih => exact ih
  | pending p ih => simp [suspensions,value,ih]
  | stalled => simp [suspensions,value]

theorem suspensions_bind (p : Coroutine ε α) (f : α → Coroutine ε β) :
    (p >>= f).suspensions = p.suspensions + p.value.elim 0 fun a => (f a).suspensions := by
  induction p with
  | done a => exact (zero_add _).symm
  | emit e p ih => exact ih
  | pending p ih =>
    rw [pending_bind]
    simp only [suspensions,value,ih]
    rw [add_right_comm]
  | stalled => simp [suspensions,value]

/-- What has been reported when the computation is found suspended for the time with index `n`, or
everything if it returns before that. -/
def reportedAt : ℕ → Coroutine ε α → List ε
  | _,done _ => []
  | n,emit e p => e :: reportedAt n p
  | 0,pending _ => []
  | n+1,pending p => reportedAt n p
  | _,stalled => []

theorem reportedAt_of_suspensions_le {n : ℕ} {p : Coroutine ε α} (h : p.suspensions ≤ n) :
    p.reportedAt n = p.trace := by
  induction p generalizing n with
  | done a => rfl
  | emit e p ih => exact congrArg (e :: ·) (ih h)
  | pending p ih => cases n with
    | zero => simp [suspensions] at h
    | succ n =>
      refine ih ?_
      rw [suspensions,Nat.cast_add,Nat.cast_one] at h
      exact (ENat.add_le_add_iff_right ENat.one_ne_top).mp h
  | stalled => simp [suspensions] at h

/-- Later on, more has been reported. -/
theorem reportedAt_prefix {m n : ℕ} (h : m ≤ n) (p : Coroutine ε α) :
    p.reportedAt m <+: p.reportedAt n := by
  induction p generalizing m n with
  | done a => exact List.prefix_refl _
  | emit e p ih => exact List.cons_prefix_cons.mpr ⟨rfl,ih h⟩
  | pending p ih =>
    cases m with
    | zero => exact List.nil_prefix
    | succ m =>
      cases n with
      | zero => omega
      | succ n => exact ih (by omega)
  | stalled => exact List.prefix_refl _

lemma lt_suspensions_pending {n : ℕ} {p : Coroutine ε α} :
    ((n+1 : ℕ) : ℕ∞) < (pending p).suspensions ↔ (n : ℕ∞) < p.suspensions := by
  rw [suspensions,Nat.cast_add,Nat.cast_one]
  exact ENat.add_lt_add_iff_right ENat.one_ne_top

/-- A computation is found suspended exactly at its suspensions, each with its index. -/
theorem suspendsAt_iff {p : Coroutine ε α} {t : List ε} :
    p.SuspendsAt t ↔ ∃ n : ℕ, n < p.suspensions ∧ t = p.reportedAt n := by
  induction p generalizing t with
  | done a => simp [SuspendsAt,suspensions]
  | emit e p ih =>
    simp only [SuspendsAt,suspensions,reportedAt,ih]
    constructor
    · rintro ⟨_,rfl,n,hn,rfl⟩
      exact ⟨n,hn,rfl⟩
    · rintro ⟨n,hn,rfl⟩
      exact ⟨_,rfl,n,hn,rfl⟩
  | pending p ih =>
    rw [SuspendsAt,ih]
    constructor
    · rintro (rfl | ⟨n,hn,rfl⟩)
      · exact ⟨0,by simp [suspensions],rfl⟩
      · exact ⟨n+1,lt_suspensions_pending.mpr hn,rfl⟩
    · rintro ⟨n,hn,rfl⟩
      cases n with
      | zero => exact Or.inl rfl
      | succ n => exact Or.inr ⟨n,lt_suspensions_pending.mp hn,rfl⟩
  | stalled =>
    simp only [SuspendsAt,suspensions,reportedAt,ENat.natCast_lt_top,true_and,exists_const]

theorem suspensions_eq_zero {p : Coroutine ε α} :
    p.suspensions = 0 ↔ ∀ t, ¬ p.SuspendsAt t := by
  constructor
  · intro h t ht
    obtain ⟨n,hn,-⟩ := suspendsAt_iff.mp ht
    simp [h] at hn
  · intro h
    by_contra hne
    exact h _ (suspendsAt_iff.mpr ⟨0,pos_of_ne_zero hne,rfl⟩)

lemma suspensions_sleep (n : ℕ) (a : α) :
    (sleep n (done a) : Coroutine ε α).suspensions = n := by
  induction n with
  | zero => rfl
  | succ n ih => rw [sleep,suspensions,ih,Nat.cast_add,Nat.cast_one]

/-- Under a deadline, a computation is suspended as without it, but no longer than that. -/
theorem suspensions_timeout (n : ℕ) (p : Coroutine ε α) :
    (timeout n p).suspensions = min p.suspensions n := by
  induction p generalizing n with
  | done a => simp [timeout,suspensions]
  | emit e p ih => exact ih n
  | pending p ih => cases n with
    | zero => simp [timeout,suspensions]
    | succ n =>
      rw [timeout,suspensions,ih,suspensions,Nat.cast_add,Nat.cast_one]
      exact (min_add_add_right _ _ _).symm
  | stalled => rw [timeout,suspensions_sleep,suspensions,min_eq_right le_top]

lemma trace_timeout (n : ℕ) (p : Coroutine ε α) : (timeout n p).trace = p.reportedAt n := by
  induction p generalizing n with
  | done a => rfl
  | emit e p ih => exact congrArg (e :: ·) (ih n)
  | pending p ih => cases n with
    | zero => rfl
    | succ n => exact ih n
  | stalled => exact trace_sleep n _

/-- A deadline gives a result in every case, and it is that of the computation if that returns
within so many suspensions. -/
theorem value_timeout (n : ℕ) (p : Coroutine ε α) :
    (timeout n p).value = some (if p.suspensions ≤ n then p.value else none) := by
  induction p generalizing n with
  | done a => simp [timeout,value,suspensions]
  | emit e p ih => exact ih n
  | pending p ih => cases n with
    | zero => simp [timeout,value,suspensions]
    | succ n =>
      have hle : (pending p).suspensions ≤ ((n+1 : ℕ) : ℕ∞) ↔ p.suspensions ≤ n := by
        rw [← not_lt,lt_suspensions_pending,not_lt]
      simp only [timeout,value,ih,hle]
  | stalled => simp [timeout,value,suspensions]

/-- The computation returns `a` after exactly `n` suspensions. -/
def Finishes (p : Coroutine ε α) (n : ℕ) (a : α) : Prop := p.value = some a ∧ p.suspensions = n

lemma finishes_pure {a b : α} {n : ℕ} :
    Finishes (pure a : Coroutine ε α) n b ↔ n = 0 ∧ b = a := by
  constructor
  · rintro ⟨hv,hn⟩
    exact ⟨(Nat.cast_eq_zero.mp hn.symm),(Option.some.inj hv).symm⟩
  · rintro ⟨rfl,rfl⟩
    exact ⟨rfl,rfl⟩

lemma finishes_pending {p : Coroutine ε α} {n : ℕ} {a : α} :
    Finishes (pending p) n a ↔ ∃ m, n = m+1 ∧ Finishes p m a := by
  rw [Finishes,value,suspensions]
  cases n with
  | zero => simp
  | succ n =>
    rw [Nat.cast_add,Nat.cast_one,(ENat.add_left_injective_of_ne_top ENat.one_ne_top).eq_iff]
    simp [Finishes]

lemma finishes_await {p : Future α} {n : ℕ} {a : α} :
    Finishes (await p : Coroutine ε α) n a ↔ Finishes p n a := by
  rw [Finishes,value_await,suspensions_await,Finishes]

/-- The steps of a sequence finish one after the other. -/
theorem finishes_bind {p : Coroutine ε α} {f : α → Coroutine ε β} {n : ℕ} {b : β} :
    Finishes (p >>= f) n b ↔ ∃ a i j, Finishes p i a ∧ Finishes (f a) j b ∧ n = i+j := by
  induction p generalizing n with
  | done a =>
    constructor
    · intro h
      exact ⟨a,0,n,finishes_pure.mpr ⟨rfl,rfl⟩,h,(Nat.zero_add n).symm⟩
    · rintro ⟨_,_,j,hp,hf,rfl⟩
      obtain ⟨rfl,rfl⟩ := finishes_pure.mp hp
      rwa [Nat.zero_add]
  | emit e p ih => exact ih
  | pending p ih =>
    rw [pending_bind,finishes_pending]
    constructor
    · rintro ⟨m,rfl,h⟩
      obtain ⟨a,i,j,hp,hf,rfl⟩ := ih.mp h
      exact ⟨a,i+1,j,finishes_pending.mpr ⟨i,rfl,hp⟩,hf,Nat.add_right_comm i j 1⟩
    · rintro ⟨a,_,j,hp,hf,rfl⟩
      obtain ⟨i,rfl,hrest⟩ := finishes_pending.mp hp
      exact ⟨i+j,Nat.add_right_comm i 1 j,ih.mpr ⟨a,i,j,hrest,hf,rfl⟩⟩
  | stalled => simp [Finishes,value]

/-- The computation reports `e` after exactly `n` suspensions. -/
def ReportsAfter (e : ε) : ℕ → Coroutine ε α → Prop
  | _,done _ => False
  | n,emit e' p => n = 0 ∧ e = e' ∨ ReportsAfter e n p
  | 0,pending _ => False
  | n+1,pending p => ReportsAfter e n p
  | _,stalled => False

lemma mem_trace_iff {p : Coroutine ε α} {e : ε} : e ∈ p.trace ↔ ∃ n, ReportsAfter e n p := by
  induction p with
  | done a => simp [trace,ReportsAfter]
  | emit e' p ih =>
    simp only [trace,ReportsAfter,List.mem_cons,ih]
    constructor
    · rintro (rfl | ⟨n,hn⟩)
      · exact ⟨0,Or.inl ⟨rfl,rfl⟩⟩
      · exact ⟨n,Or.inr hn⟩
    · rintro ⟨n,⟨-,rfl⟩ | hn⟩
      · exact Or.inl rfl
      · exact Or.inr ⟨n,hn⟩
  | pending p ih =>
    rw [trace,ih]
    constructor
    · rintro ⟨n,hn⟩
      exact ⟨n+1,hn⟩
    · rintro ⟨n,hn⟩
      cases n with
      | zero => exact hn.elim
      | succ n => exact ⟨n,hn⟩
  | stalled => simp [trace,ReportsAfter]

lemma not_reportsAfter {p : Coroutine ε α} {e : ε} {n : ℕ} (h : e ∉ p.trace) : ¬ ReportsAfter e n p :=
  fun hn => h (mem_trace_iff.mpr ⟨n,hn⟩)

lemma exists_reaches {p : Coroutine ε α} {e : ε} :
    (∃ t, p.Reaches t e) ↔ ∃ n, ReportsAfter e n p := by
  rw [← mem_trace_iff,List.mem_iff_append]
  rfl

/-- Before a deadline, all is reported that was to be reported by then. -/
theorem reportsAfter_timeout {p : Coroutine ε α} {e : ε} {n limit : ℕ} :
    ReportsAfter e n (timeout limit p) ↔ n ≤ limit ∧ ReportsAfter e n p := by
  induction p generalizing n limit with
  | done a => simp [timeout,ReportsAfter]
  | emit e' p ih =>
    simp only [timeout,ReportsAfter,ih]
    constructor
    · rintro (⟨rfl,rfl⟩ | ⟨hle,h⟩)
      · exact ⟨Nat.zero_le limit,Or.inl ⟨rfl,rfl⟩⟩
      · exact ⟨hle,Or.inr h⟩
    · rintro ⟨hle,h | h⟩
      · exact Or.inl h
      · exact Or.inr ⟨hle,h⟩
  | pending p ih =>
    cases n with
    | zero => cases limit <;> simp [timeout,ReportsAfter]
    | succ n =>
      cases limit with
      | zero => simp [timeout,ReportsAfter]
      | succ limit =>
        rw [timeout,ReportsAfter,ReportsAfter,ih,Nat.succ_le_succ_iff]
  | stalled =>
    refine iff_of_false (not_reportsAfter ?_) fun h => h.2
    rw [timeout,trace_sleep]
    exact List.not_mem_nil

/-- An event of a sequence is reported by its first step, or by the second after all suspensions of
the first. -/
theorem reportsAfter_bind {p : Coroutine ε α} {f : α → Coroutine ε β} {e : ε} {n : ℕ} :
    ReportsAfter e n (p >>= f) ↔ ReportsAfter e n p ∨
      ∃ a i j, Finishes p i a ∧ ReportsAfter e j (f a) ∧ n = i+j := by
  induction p generalizing n with
  | done a =>
    constructor
    · intro h
      exact Or.inr ⟨a,0,n,finishes_pure.mpr ⟨rfl,rfl⟩,h,(Nat.zero_add n).symm⟩
    · rintro (h | ⟨_,_,j,hp,hf,rfl⟩)
      · exact h.elim
      · obtain ⟨rfl,rfl⟩ := finishes_pure.mp hp
        rwa [Nat.zero_add]
  | emit e' p ih =>
    rw [emit_bind]
    simp only [ReportsAfter,ih,or_assoc]
    rfl
  | pending p ih =>
    rw [pending_bind]
    cases n with
    | zero =>
      refine iff_of_false id ?_
      rintro (h | ⟨a,i,j,hp,-,hij⟩)
      · exact h
      · obtain ⟨m,rfl,-⟩ := finishes_pending.mp hp
        omega
    | succ n =>
      rw [ReportsAfter,ReportsAfter,ih]
      refine or_congr_right ?_
      constructor
      · rintro ⟨a,i,j,hp,hf,rfl⟩
        exact ⟨a,i+1,j,finishes_pending.mpr ⟨i,rfl,hp⟩,hf,Nat.add_right_comm i j 1⟩
      · rintro ⟨a,_,j,hp,hf,hij⟩
        obtain ⟨i,rfl,hrest⟩ := finishes_pending.mp hp
        exact ⟨a,i,j,hrest,hf,by omega⟩
  | stalled => simp [ReportsAfter,Finishes,value]

lemma reportsAfter_bind_left {p : Coroutine ε α} {f : α → Coroutine ε β} {e : ε} {n : ℕ}
    (h : ∀ a, e ∉ (f a).trace) : ReportsAfter e n (p >>= f) ↔ ReportsAfter e n p := by
  rw [reportsAfter_bind,or_iff_left]
  rintro ⟨a,i,j,-,hf,-⟩
  exact not_reportsAfter (h a) hf

lemma reportsAfter_await_bind {p : Future α} {f : α → Coroutine ε β} {e : ε} {n : ℕ} :
    ReportsAfter e n (await p >>= f) ↔
      ∃ a i j, Finishes p i a ∧ ReportsAfter e j (f a) ∧ n = i+j := by
  have hawait : e ∉ (await p : Coroutine ε α).trace := by
    rw [trace_await]
    exact List.not_mem_nil
  rw [reportsAfter_bind,or_iff_right (not_reportsAfter hawait)]
  simp only [finishes_await]

lemma reportsAfter_report {e e' : ε} {n : ℕ} : ReportsAfter e n (report e') ↔ n = 0 ∧ e = e' :=
  or_iff_left id

lemma reportsAfter_report_bind {e e' : ε} {p : Unit → Coroutine ε α} {n : ℕ} (h : e ≠ e') :
    ReportsAfter e n (report e' >>= p) ↔ ReportsAfter e n (p ()) := by
  change (n = 0 ∧ e = e') ∨ _ ↔ _
  rw [or_iff_right fun hr => h hr.2]
  rfl

lemma reportsAfter_reportAll_bind {es : List ε} {e : ε} {p : Unit → Coroutine ε α} {n : ℕ}
    (h : e ∉ es) : ReportsAfter e n (reportAll es >>= p) ↔ ReportsAfter e n (p ()) := by
  induction es with
  | nil => rfl
  | cons first es ih =>
    obtain ⟨hfirst,hrest⟩ := List.ne_and_not_mem_of_not_mem_cons h
    change (n = 0 ∧ e = first) ∨ ReportsAfter e n (reportAll es >>= p) ↔ _
    rw [or_iff_right fun hr => hfirst hr.2,ih hrest]

end SoapAxum.Semantics.Coroutine
