import Steward.Supervision.Worker

/-!
# What a chronicle says

The life of a worker is told as a list of entries. This module reads such a list in several ways:
the events that are published, the attempts on one backend, the sessions that are obtained and those
that are closed, and whether the monitor is at work.

All of these readings but the last turn the concatenation of two lists into the concatenation of
what is read. The last is read from the left, so what it says of a list starts from what was said
before.
-/

namespace Steward.Supervision

/-! ## Readings of a deed -/

namespace Deed

/-- The position of the session that a deed obtains. -/
def obtained? : Deed → Option Nat
  | obtain position => some position
  | _ => none

/-- The position of the session that a deed closes. -/
def closed? : Deed → Option Nat
  | close position _ => some position
  | _ => none

/-- The position of the backend on which a deed begins an attempt. -/
def attempted? : Deed → Option Nat
  | attempt position _ => some position
  | _ => none

/-- True if a deed begins something: an attempt, the building of the resource, or its watch. -/
def begins : Deed → Bool
  | attempt .. | build .. | watch _ => true
  | _ => false

/-- True if a deed belongs to connecting the backend at a position. -/
def isConnecting (position : Nat) : Deed → Bool
  | publish _ => true
  | attempt p _ => p = position
  | obtain p => p = position
  | _ => false

/-- True if a deed belongs to working on the resource. -/
def isWorking : Deed → Bool
  | publish _ | build .. | watch _ | read _ | watched | dismiss => true
  | _ => false

/-- True if a deed belongs to taking leave. -/
def isLeaving : Deed → Bool
  | publish _ | close .. | breakDown => true
  | _ => false

/-- Whether the monitor is at work behind a deed, if it is before. -/
def watching (before : Bool) : Deed → Bool
  | watch _ => true
  | dismiss => false
  | _ => before

variable {d : Deed} {position p : Nat}

theorem closed?_of_isConnecting (h : d.isConnecting position) : d.closed? = none := by
  cases d <;> simp_all [isConnecting, closed?]

theorem closed?_of_isWorking (h : d.isWorking) : d.closed? = none := by
  cases d <;> simp_all [isWorking, closed?]

theorem obtained?_of_isWorking (h : d.isWorking) : d.obtained? = none := by
  cases d <;> simp_all [isWorking, obtained?]

theorem obtained?_of_isLeaving (h : d.isLeaving) : d.obtained? = none := by
  cases d <;> simp_all [isLeaving, obtained?]

theorem attempted?_of_isConnecting (h : d.isConnecting position) (hne : position ≠ p) :
    d.attempted? ≠ some p := by
  cases d <;> simp_all [isConnecting, attempted?]

theorem attempted?_of_isWorking (h : d.isWorking) : d.attempted? = none := by
  cases d <;> simp_all [isWorking, attempted?]

theorem attempted?_of_isLeaving (h : d.isLeaving) : d.attempted? = none := by
  cases d <;> simp_all [isLeaving, attempted?]

theorem begins_of_isLeaving (h : d.isLeaving) : d.begins = false := by
  cases d <;> simp_all [isLeaving, begins]

theorem watching_of_isConnecting (h : d.isConnecting position) (b : Bool) : d.watching b = b := by
  cases d <;> simp_all [isConnecting, watching]

theorem watching_of_isLeaving (h : d.isLeaving) (b : Bool) : d.watching b = b := by
  cases d <;> simp_all [isLeaving, watching]

end Deed

/-! ## Readings of a chronicle -/

/-- The events that are published. -/
def events (es : List Entry) : List Event := es.filterMap fun e => e.deed.event?

/-- The positions of the sessions that are obtained. -/
def obtained (es : List Entry) : List Nat := es.filterMap fun e => e.deed.obtained?

/-- The positions of the sessions that are closed. -/
def closed (es : List Entry) : List Nat := es.filterMap fun e => e.deed.closed?

/-- The moments at which attempts on the backend at a position are begun. -/
def attempts (position : Nat) (es : List Entry) : List Moment :=
  es.filterMap fun e => if e.deed.attempted? = some position then some e.moment else none

/-- True if the monitor is at work behind some entries, if it is `before` them. -/
def isWatching (before : Bool) (es : List Entry) : Bool :=
  es.foldl (fun b e => e.deed.watching b) before

variable {position : Nat} {b : Bool} {es fs : List Entry} {e : Entry}

@[simp] theorem events_nil : events [] = [] := rfl

@[simp] theorem obtained_nil : obtained [] = [] := rfl

@[simp] theorem closed_nil : closed [] = [] := rfl

@[simp] theorem attempts_nil : attempts position [] = [] := rfl

@[simp] theorem isWatching_nil : isWatching b [] = b := rfl

theorem events_cons : events (e :: es) = e.deed.event?.toList ++ events es := by
  unfold events
  cases h : e.deed.event? <;> simp [h]

theorem obtained_cons : obtained (e :: es) = e.deed.obtained?.toList ++ obtained es := by
  unfold obtained
  cases h : e.deed.obtained? <;> simp [h]

theorem closed_cons : closed (e :: es) = e.deed.closed?.toList ++ closed es := by
  unfold closed
  cases h : e.deed.closed? <;> simp [h]

theorem attempts_cons : attempts position (e :: es) =
    (if e.deed.attempted? = some position then [e.moment] else []) ++ attempts position es := by
  unfold attempts
  by_cases h : e.deed.attempted? = some position <;> simp [h]

theorem isWatching_cons : isWatching b (e :: es) = isWatching (e.deed.watching b) es := rfl

@[simp] theorem events_append : events (es ++ fs) = events es ++ events fs := List.filterMap_append

@[simp] theorem obtained_append : obtained (es ++ fs) = obtained es ++ obtained fs :=
  List.filterMap_append

@[simp] theorem closed_append : closed (es ++ fs) = closed es ++ closed fs := List.filterMap_append

@[simp] theorem attempts_append :
    attempts position (es ++ fs) = attempts position es ++ attempts position fs :=
  List.filterMap_append

@[simp] theorem isWatching_append :
    isWatching b (es ++ fs) = isWatching (isWatching b es) fs := List.foldl_append

/-! ## Entries that a reading passes over -/

theorem closed_eq_nil (h : ∀ e ∈ es, e.deed.closed? = none) : closed es = [] :=
  List.filterMap_eq_nil_iff.mpr h

theorem obtained_eq_nil (h : ∀ e ∈ es, e.deed.obtained? = none) : obtained es = [] :=
  List.filterMap_eq_nil_iff.mpr h

theorem attempts_eq_nil (h : ∀ e ∈ es, e.deed.attempted? ≠ some position) :
    attempts position es = [] :=
  List.filterMap_eq_nil_iff.mpr fun e he => if_neg (h e he)

theorem isWatching_eq (h : ∀ e ∈ es, ∀ b, e.deed.watching b = b) : isWatching b es = b := by
  induction es with
  | nil => rfl
  | cons e es ih =>
    rw [isWatching_cons, h e List.mem_cons_self]
    exact ih fun f hf => h f (List.mem_cons_of_mem _ hf)

end Steward.Supervision
