import Acva.Lib.Runs
import Mathlib.Order.Basic

/-!
# The half-duplex gate

While the assistant speaks, and for a hangover after that, the gate drops what the microphone picks up. The FSM thread
tells it with `set_speaking`, the audio thread asks it with `should_drop_now`. Each atomic access is a step of its own,
and so is each reading of the clock.
-/

namespace Acva

/-- The clock of a gate: `num / den` seconds make a tick. -/
structure ClockPeriod where
  num : Nat := 1
  den : Nat := 1
  num_pos : 0 < num := by decide
  den_pos : 0 < den := by decide

namespace ClockPeriod

/-- `duration_cast` to milliseconds, which truncates. -/
def toMilliseconds (c : ClockPeriod) (ticks : Int) : Int := (ticks * (1000 * c.num)).tdiv c.den

/-- So many milliseconds have passed from one reading to the other. -/
def Elapsed (c : ClockPeriod) (ms start now : Int) : Prop := ms * c.den ≤ (now - start) * (1000 * c.num)

instance (c : ClockPeriod) (ms start now : Int) : Decidable (c.Elapsed ms start now) :=
  inferInstanceAs (Decidable (_ ≤ _))

variable {c : ClockPeriod} {ms start start' now now' : Int}

lemma Elapsed.mono (h : c.Elapsed ms start now) (hle : now - start ≤ now' - start') : c.Elapsed ms start' now' := by
  have hscale : (0 : Int) ≤ 1000 * c.num := by omega
  exact Int.le_trans h (Int.mul_le_mul_of_nonneg_right hle hscale)

lemma toMilliseconds_mono {a b : Int} (h : a ≤ b) : c.toMilliseconds a ≤ c.toMilliseconds b := by
  have hscale : (0 : Int) ≤ 1000 * c.num := by omega
  have hden : (0 : Int) < c.den := by exact_mod_cast c.den_pos
  exact Int.tdiv_le_tdiv hden (Int.mul_le_mul_of_nonneg_right h hscale)

lemma toMilliseconds_lt_iff (h : start ≤ now) :
    c.toMilliseconds (now - start) < ms ↔ ¬c.Elapsed ms start now := by
  have hscale : (0 : Int) ≤ 1000 * c.num := by omega
  have hden : (0 : Int) < c.den := by exact_mod_cast c.den_pos
  have hnonneg : 0 ≤ (now - start) * (1000 * c.num) := Int.mul_nonneg (by omega) hscale
  rw [toMilliseconds, Int.tdiv_eq_ediv_of_nonneg hnonneg, Int.ediv_lt_iff_lt_mul hden, Elapsed, Int.not_le]

end ClockPeriod

/-- The shared variables. -/
structure HalfDuplexGate where
  speaking : Bool := false
  inHangover : Bool := false
  endedAt : Int := 0
  deriving DecidableEq, Repr

/-- What a call of `set_speaking` does next. -/
inductive SetSpeakingPc
  | idle
  | readClock
  | storeEndedAt (now : Int)
  | storeInHangover
  | clearInHangover
  deriving DecidableEq, Repr

/-- What a call of `should_drop_now` does next. The operands of the subtraction are read in either order. -/
inductive ShouldDropPc
  | idle
  | loadSpeaking
  | loadInHangover
  | readOperands
  | loadEndedAt (now : Int)
  | readClock (endedAt : Int)
  deriving DecidableEq, Repr

/-- A step of `should_drop_now` goes on or returns. -/
inductive ShouldDropNext
  | go (pc : ShouldDropPc)
  | ret (drop : Bool)
  deriving DecidableEq, Repr

namespace HalfDuplexGate

/-- The exchange, and what the edge then calls for. -/
def exchange (g : HalfDuplexGate) (active : Bool) : HalfDuplexGate × SetSpeakingPc :=
  ({ g with speaking := active },
    if g.speaking && !active then .readClock else if !g.speaking && active then .clearInHangover else .idle)

/-- The steps of `set_speaking` after its exchange. -/
def setSpeaking (g : HalfDuplexGate) (now : Int) : SetSpeakingPc → HalfDuplexGate × SetSpeakingPc
  | .idle => (g, .idle)
  | .readClock => (g, .storeEndedAt now)
  | .storeEndedAt t => ({ g with endedAt := t }, .storeInHangover)
  | .storeInHangover => ({ g with inHangover := true }, .idle)
  | .clearInHangover => ({ g with inHangover := false }, .idle)

def shouldDropNow (c : ClockPeriod) (hangover : Int) (g : HalfDuplexGate) (now : Int) (clockFirst : Bool) :
    ShouldDropPc → ShouldDropNext
  | .idle => .go .idle
  | .loadSpeaking => if g.speaking then .ret true else .go .loadInHangover
  | .loadInHangover => if !g.inHangover then .ret false else .go .readOperands
  | .readOperands => .go (if clockFirst then .loadEndedAt now else .readClock g.endedAt)
  | .loadEndedAt t => .ret (c.toMilliseconds (t - g.endedAt) < hangover)
  | .readClock endedAt => .ret (c.toMilliseconds (now - endedAt) < hangover)

end HalfDuplexGate

/-- The last `set_speaking(true)` that has returned, and the falling edge that follows it. -/
inductive LastSpeech
  | never
  | speaking
  | fell (edge : Int)
  deriving DecidableEq, Repr

namespace LastSpeech

/-- A falling edge at time `now`. -/
def fall (now : Int) : LastSpeech → LastSpeech
  | .speaking => .fell now
  | p => p

/-- There has been speech, and the hangover has not passed since it ended. -/
def Covers (c : ClockPeriod) (hangover now : Int) : LastSpeech → Prop
  | .never => False
  | .speaking => True
  | .fell edge => ¬c.Elapsed hangover edge now

instance (c : ClockPeriod) (hangover now : Int) : (p : LastSpeech) → Decidable (p.Covers c hangover now)
  | .never => isFalse id
  | .speaking => isTrue trivial
  | .fell _ => inferInstanceAs (Decidable (¬_))

/-- There has been speech, and the hangover has passed since it ended. -/
def Over (c : ClockPeriod) (hangover now : Int) : LastSpeech → Prop
  | .fell edge => c.Elapsed hangover edge now
  | _ => False

instance (c : ClockPeriod) (hangover now : Int) : (p : LastSpeech) → Decidable (p.Over c hangover now)
  | .never | .speaking => isFalse id
  | .fell _ => inferInstanceAs (Decidable (c.Elapsed _ _ _))

end LastSpeech

/-- The gate, its clock and the two threads. The last three fields are not in the program: what has been said before now
and before the running call of `should_drop_now`, and whether that call began after the hangover and has met no new
rising edge. -/
structure GateWorld where
  gate : HalfDuplexGate := {}
  now : Int := 0
  setter : SetSpeakingPc := .idle
  dropper : ShouldDropPc := .idle
  last : LastSpeech := .never
  call : LastSpeech := .never
  late : Bool := false
  deriving DecidableEq, Repr

/-- A thread that is not idle takes its next step, an idle one begins a call. -/
inductive GateAction
  | tick (ticks : Nat)
  | setSpeaking (active : Bool)
  | setterStep
  | shouldDropNow
  | dropperStep (clockFirst : Bool)
  deriving DecidableEq, Repr

namespace GateWorld

variable (c : ClockPeriod) (hangover : Int)

def exchange (s : GateWorld) (active : Bool) : GateWorld :=
  if s.setter ≠ .idle then s
  else
    let next := s.gate.exchange active
    let s' := { s with gate := next.1, setter := next.2 }
    match s.gate.speaking, active with
    | true, false => { s' with last := s.last.fall s.now, call := s.call.fall s.now }
    | false, true => { s' with late := false }
    | true, true => { s' with last := .speaking }
    | false, false => s'

def setterStep (s : GateWorld) : GateWorld :=
  let next := s.gate.setSpeaking s.now s.setter
  let s' := { s with gate := next.1, setter := next.2 }
  if s.setter = .clearInHangover then { s' with last := .speaking } else s'

def beginCall (s : GateWorld) : GateWorld :=
  if s.dropper ≠ .idle then s
  else
    { s with
      dropper := .loadSpeaking
      call := s.last
      late := s.gate.speaking = false ∧ s.last.Over c hangover s.now }

def dropperStep (s : GateWorld) (clockFirst : Bool) : GateWorld :=
  match s.gate.shouldDropNow c hangover s.now clockFirst s.dropper with
  | .go pc => { s with dropper := pc }
  | .ret _ => { s with dropper := .idle }

def step (s : GateWorld) : GateAction → GateWorld
  | .tick ticks => { s with now := s.now + ticks }
  | .setSpeaking active => s.exchange active
  | .setterStep => s.setterStep
  | .shouldDropNow => s.beginCall c hangover
  | .dropperStep clockFirst => s.dropperStep c hangover clockFirst

/-- The call that this step ends, if it ends one, returns this. -/
def returned (s : GateWorld) : GateAction → Option Bool
  | .dropperStep clockFirst =>
    match s.gate.shouldDropNow c hangover s.now clockFirst s.dropper with
    | .go _ => none
    | .ret drop => some drop
  | _ => none

/-- A call that begins after `set_speaking(true)` has returned and ends before the hangover has passed since the falling
edge drops, and a call that begins after the hangover and meets no new rising edge does not. -/
def Tight (s : GateWorld) (a : GateAction) : Prop :=
  ∀ drop ∈ s.returned c hangover a,
    (s.call.Covers c hangover s.now → drop = true) ∧ (s.late = true → drop = false)

instance (s : GateWorld) (a : GateAction) : Decidable (s.Tight c hangover a) :=
  inferInstanceAs (Decidable (∀ drop ∈ _, _))

/-- This step is the load of `in_hangover_`. -/
def LoadsInHangover (s : GateWorld) (a : GateAction) : Prop :=
  s.dropper = .loadInHangover ∧ ∃ clockFirst, a = .dropperStep clockFirst

/-- The operands of the subtraction, if this step reads the second of them. -/
def operands (s : GateWorld) : GateAction → Option (Int × Int)
  | .dropperStep _ =>
    match s.dropper with
    | .loadEndedAt t => some (t, s.gate.endedAt)
    | .readClock endedAt => some (s.now, endedAt)
    | _ => none
  | _ => none

/-- A call that must drop loads `in_hangover_` neither before a falling edge has set it nor after a new rising edge has
cleared it. -/
def Unraced (s : GateWorld) (a : GateAction) : Prop :=
  s.LoadsInHangover a → s.call.Covers c hangover s.now →
    (s.setter = .idle ∧ s.gate.speaking = false) ∨ s.setter = .clearInHangover

/-- There is no race, and for a call that begins after the hangover the hangover has also passed since the clock reading
of the falling edge. -/
structure Undisturbed (s : GateWorld) (a : GateAction) : Prop where
  unraced : s.Unraced c hangover a
  anchor : ∀ operands ∈ s.operands a, s.late = true → c.Elapsed hangover operands.2 operands.1

/-! ### The invariant -/

/-- Where `set_speaking` stands, and what the shared variables then say. -/
def Phase (s : GateWorld) : Prop :=
  match s.setter with
  | .idle =>
    match s.last with
    | .never => s.gate.speaking = false ∧ s.gate.inHangover = false
    | .speaking => s.gate.speaking = true ∧ s.gate.inHangover = false
    | .fell _ => s.gate.speaking = false ∧ s.gate.inHangover = true
  | .clearInHangover =>
    match s.last with
    | .never => s.gate.speaking = true ∧ s.gate.inHangover = false
    | .speaking => False
    | .fell _ => s.gate.speaking = true ∧ s.gate.inHangover = true
  | _ => (∃ edge, s.last = .fell edge) ∧ s.gate.speaking = false ∧ s.gate.inHangover = false

/-- Once it is set, `ended_at_` is not from before the edge. -/
structure Anchored (s : GateWorld) (edge : Int) : Prop where
  past : edge ≤ s.now
  held : ∀ t, s.setter = .storeEndedAt t → edge ≤ t
  stored : s.setter = .storeInHangover ∨ s.gate.inHangover = true → edge ≤ s.gate.endedAt

/-- What `p` says of the past is true in `s`. -/
structure Records (s : GateWorld) (p : LastSpeech) : Prop where
  never : s.last = .never → p = .never
  speaking : p = .speaking → s.gate.speaking = true
  fell : ∀ edge, p = .fell edge → s.Anchored edge

/-- No clock reading is from the future. -/
structure Clocked (s : GateWorld) : Prop where
  held : ∀ t, s.setter = .storeEndedAt t → t ≤ s.now
  stored : s.setter = .storeInHangover ∨ s.gate.inHangover = true → s.gate.endedAt ≤ s.now

/-- What a call of `should_drop_now` knows when it has come that far. -/
def Known (s : GateWorld) : Prop :=
  match s.dropper with
  | .idle | .loadSpeaking => True
  | .loadInHangover => s.call ≠ .speaking
  | .readOperands =>
    s.call ≠ .speaking ∧ (∀ edge, s.call = .fell edge → edge ≤ s.gate.endedAt) ∧
      (s.late = true → s.gate.inHangover = true)
  | .loadEndedAt t =>
    s.call ≠ .speaking ∧ (∀ edge, s.call = .fell edge → edge ≤ s.gate.endedAt) ∧ t ≤ s.now ∧
      (s.late = true → s.gate.inHangover = true ∧ s.gate.endedAt ≤ t)
  | .readClock endedAt =>
    s.call ≠ .speaking ∧ (∀ edge, s.call = .fell edge → edge ≤ endedAt) ∧ (s.late = true → endedAt ≤ s.now)

structure Inv (s : GateWorld) : Prop where
  phase : s.Phase
  last : s.Records s.last
  call : s.Records s.call
  clocked : s.Clocked
  quiet : s.late = true → s.gate.speaking = false
  known : s.Known

lemma Inv.init (start : Int) : Inv { now := start } where
  phase := ⟨rfl, rfl⟩
  last := ⟨fun _ => rfl, by simp, by simp⟩
  call := ⟨fun _ => rfl, by simp, by simp⟩
  clocked := ⟨by simp, by simp⟩
  quiet := by simp
  known := trivial

variable {s : GateWorld}

lemma Inv.tick (h : s.Inv) (ticks : Nat) : Inv { s with now := s.now + ticks } := by
  obtain ⟨hphase, hlast, hcall, hclocked, hquiet, hknown⟩ := h
  refine ⟨hphase, ?_, ?_, ?_, hquiet, ?_⟩
  · grind [Records, Anchored]
  · grind [Records, Anchored]
  · grind [Clocked]
  · grind [Known]

lemma Records.fall {p : LastSpeech} (h : s.Records p) (hclear : s.gate.inHangover = false)
    (hspeech : s.last = .speaking) :
    Records { s with
      gate := { s.gate with speaking := false }
      setter := .readClock
      last := s.last.fall s.now
      call := s.call.fall s.now } (p.fall s.now) := by
  cases p with
  | never => exact ⟨fun _ => rfl, by simp [LastSpeech.fall], by simp [LastSpeech.fall]⟩
  | speaking =>
    refine ⟨by simp [hspeech, LastSpeech.fall], by simp [LastSpeech.fall], ?_⟩
    rintro edge ⟨rfl⟩
    exact ⟨Int.le_refl _, by simp, by simp [hclear]⟩
  | fell edge =>
    refine ⟨by simp [hspeech, LastSpeech.fall], by simp [LastSpeech.fall], ?_⟩
    rintro _ ⟨rfl⟩
    exact ⟨(h.fell edge rfl).past, by simp, by simp [hclear]⟩

lemma Inv.fall (h : s.Inv) (hidle : s.setter = .idle) (hspeaking : s.gate.speaking = true) :
    Inv { s with
      gate := { s.gate with speaking := false }
      setter := .readClock
      last := s.last.fall s.now
      call := s.call.fall s.now } := by
  obtain ⟨hphase, hlast, hcall, hclocked, hquiet, hknown⟩ := h
  obtain ⟨hspeech, hclear⟩ : s.last = .speaking ∧ s.gate.inHangover = false := by grind [Phase]
  constructor
  · simp [Phase, hspeech, hclear, LastSpeech.fall]
  · exact hlast.fall hclear hspeech
  · exact hcall.fall hclear hspeech
  · exact ⟨by simp, by simp [hclear]⟩
  · simp
  · grind [Known, LastSpeech.fall]

lemma Inv.rise (h : s.Inv) (hidle : s.setter = .idle) (hspeaking : s.gate.speaking = false) :
    Inv { s with gate := { s.gate with speaking := true }, setter := .clearInHangover, late := false } := by
  obtain ⟨hphase, hlast, hcall, hclocked, hquiet, hknown⟩ := h
  constructor
  · grind [Phase]
  · grind [Records, Anchored]
  · grind [Records, Anchored]
  · grind [Clocked]
  · simp
  · grind [Known]

lemma exchange_same (hidle : s.setter = .idle) {active : Bool} (hspeaking : s.gate.speaking = active)
    (hlast : active = true → s.last = .speaking) : s.exchange active = s := by
  obtain ⟨⟨speaking, inHangover, endedAt⟩, now, setter, dropper, last, call, late⟩ := s
  simp only at hidle hspeaking hlast
  subst hidle hspeaking
  cases speaking with
  | true => simp [GateWorld.exchange, HalfDuplexGate.exchange, hlast rfl]
  | false => simp [GateWorld.exchange, HalfDuplexGate.exchange]

lemma Inv.exchange (h : s.Inv) (active : Bool) : Inv (s.exchange active) := by
  by_cases hidle : s.setter = .idle
  · by_cases hsame : s.gate.speaking = active
    · have hlast : active = true → s.last = .speaking := by grind [h.phase, Phase]
      rwa [exchange_same hidle hsame hlast]
    · cases active with
      | true =>
        rw [Bool.not_eq_true] at hsame
        simpa [GateWorld.exchange, HalfDuplexGate.exchange, hidle, hsame] using h.rise hidle hsame
      | false =>
        rw [Bool.not_eq_false] at hsame
        simpa [GateWorld.exchange, HalfDuplexGate.exchange, hidle, hsame] using h.fall hidle hsame
  · rwa [GateWorld.exchange, if_pos hidle]

lemma Inv.readClock (h : s.Inv) (hsetter : s.setter = .readClock) : Inv { s with setter := .storeEndedAt s.now } := by
  obtain ⟨hphase, hlast, hcall, hclocked, hquiet, hknown⟩ := h
  constructor
  · grind [Phase]
  · grind [Records, Anchored]
  · grind [Records, Anchored]
  · grind [Clocked]
  · exact hquiet
  · exact hknown

lemma Inv.storeEndedAt (h : s.Inv) {t : Int} (hsetter : s.setter = .storeEndedAt t) :
    Inv { s with gate := { s.gate with endedAt := t }, setter := .storeInHangover } := by
  obtain ⟨hphase, hlast, hcall, hclocked, hquiet, hknown⟩ := h
  constructor
  · grind [Phase]
  · grind [Records, Anchored]
  · grind [Records, Anchored]
  · grind [Clocked]
  · exact hquiet
  · grind [Known, Records, Anchored, Phase]

lemma Inv.storeInHangover (h : s.Inv) (hsetter : s.setter = .storeInHangover) :
    Inv { s with gate := { s.gate with inHangover := true }, setter := .idle } := by
  obtain ⟨hphase, hlast, hcall, hclocked, hquiet, hknown⟩ := h
  constructor
  · grind [Phase]
  · grind [Records, Anchored]
  · grind [Records, Anchored]
  · grind [Clocked]
  · exact hquiet
  · grind [Known]

lemma Inv.clearInHangover (h : s.Inv) (hsetter : s.setter = .clearInHangover) :
    Inv { s with gate := { s.gate with inHangover := false }, setter := .idle, last := .speaking } := by
  obtain ⟨hphase, hlast, hcall, hclocked, hquiet, hknown⟩ := h
  have hspeaking : s.gate.speaking = true := by grind [Phase]
  constructor
  · exact ⟨hspeaking, rfl⟩
  · exact ⟨by simp, fun _ => hspeaking, by simp⟩
  · grind [Records, Anchored]
  · grind [Clocked]
  · exact hquiet
  · grind [Known]

lemma setterStep_idle (hsetter : s.setter = .idle) : s.setterStep = s := by
  obtain ⟨gate, now, setter, dropper, last, call, late⟩ := s
  subst hsetter
  rfl

lemma Inv.setterStep (h : s.Inv) : Inv s.setterStep := by
  cases hsetter : s.setter with
  | idle => rwa [setterStep_idle hsetter]
  | readClock => simpa [GateWorld.setterStep, HalfDuplexGate.setSpeaking, hsetter] using h.readClock hsetter
  | storeEndedAt t => simpa [GateWorld.setterStep, HalfDuplexGate.setSpeaking, hsetter] using h.storeEndedAt hsetter
  | storeInHangover =>
    simpa [GateWorld.setterStep, HalfDuplexGate.setSpeaking, hsetter] using h.storeInHangover hsetter
  | clearInHangover =>
    simpa [GateWorld.setterStep, HalfDuplexGate.setSpeaking, hsetter] using h.clearInHangover hsetter

lemma Inv.beginCall (h : s.Inv) (c : ClockPeriod) (hangover : Int) : Inv (s.beginCall c hangover) := by
  unfold GateWorld.beginCall
  split
  · exact h
  · obtain ⟨hphase, hlast, hcall, hclocked, hquiet, hknown⟩ := h
    constructor
    · exact hphase
    · grind [Records, Anchored]
    · grind [Records, Anchored]
    · grind [Clocked]
    · simp +contextual
    · trivial

/-- A step of `should_drop_now` changes nothing but where the call stands. -/
lemma Inv.goto (h : s.Inv) {pc : ShouldDropPc} (hknown : Known { s with dropper := pc }) :
    Inv { s with dropper := pc } := by
  obtain ⟨hphase, hlast, hcall, hclocked, hquiet, -⟩ := h
  constructor
  · exact hphase
  · grind [Records, Anchored]
  · grind [Records, Anchored]
  · grind [Clocked]
  · exact hquiet
  · exact hknown

lemma Inv.known_readOperands (h : s.Inv) (hdropper : s.dropper = .loadInHangover) (hset : s.gate.inHangover = true) :
    Known { s with dropper := .readOperands } := by
  have hknown := h.known
  simp only [Known, hdropper] at hknown
  exact ⟨hknown, fun edge hedge => (h.call.fell edge hedge).stored (.inr hset), fun _ => hset⟩

lemma Inv.dropperStep (h : s.Inv) (c : ClockPeriod) (hangover : Int) (clockFirst : Bool) :
    Inv (s.dropperStep c hangover clockFirst) := by
  unfold GateWorld.dropperStep
  cases hdropper : s.dropper with
  | idle => exact h.goto trivial
  | loadSpeaking =>
    cases hspeaking : s.gate.speaking with
    | true =>
      simp only [HalfDuplexGate.shouldDropNow, hspeaking, if_true]
      exact h.goto trivial
    | false =>
      simp only [HalfDuplexGate.shouldDropNow, hspeaking, Bool.false_eq_true, if_false]
      apply h.goto
      intro hcall
      simp [h.call.speaking hcall] at hspeaking
  | loadInHangover =>
    cases hset : s.gate.inHangover with
    | true =>
      simp only [HalfDuplexGate.shouldDropNow, hset, Bool.not_true, Bool.false_eq_true, if_false]
      exact h.goto (h.known_readOperands hdropper hset)
    | false =>
      simp only [HalfDuplexGate.shouldDropNow, hset, Bool.not_false, if_true]
      exact h.goto trivial
  | readOperands =>
    have hknown := h.known
    simp only [Known, hdropper] at hknown
    obtain ⟨hspeech, hedge, hset⟩ := hknown
    cases clockFirst with
    | true =>
      exact h.goto ⟨hspeech, hedge, Int.le_refl _, fun hlate => ⟨hset hlate, h.clocked.stored (.inr (hset hlate))⟩⟩
    | false => exact h.goto ⟨hspeech, hedge, fun hlate => h.clocked.stored (.inr (hset hlate))⟩
  | loadEndedAt t => exact h.goto trivial
  | readClock endedAt => exact h.goto trivial

lemma Inv.step (h : s.Inv) (c : ClockPeriod) (hangover : Int) (a : GateAction) : Inv (s.step c hangover a) := by
  cases a with
  | tick ticks => exact h.tick ticks
  | setSpeaking active => exact h.exchange active
  | setterStep => exact h.setterStep
  | shouldDropNow => exact h.beginCall c hangover
  | dropperStep clockFirst => exact h.dropperStep c hangover clockFirst

/-! ### What a call returns -/

variable {c : ClockPeriod} {hangover : Int}

/-- The anchor is no older than the edge and the clock reading no newer than the end of the call. -/
lemma Inv.drops_of_covers (h : s.Inv) (hspeech : s.call ≠ .speaking) {t endedAt : Int}
    (hedge : ∀ edge, s.call = .fell edge → edge ≤ endedAt) (hread : t ≤ s.now)
    (hcovers : s.call.Covers c hangover s.now) : c.toMilliseconds (t - endedAt) < hangover := by
  cases hcall : s.call with
  | never => simp [hcall, LastSpeech.Covers] at hcovers
  | speaking => exact absurd hcall hspeech
  | fell edge =>
    rw [hcall] at hcovers
    have hpast := (h.call.fell edge hcall).past
    have hanchor := hedge edge hcall
    calc c.toMilliseconds (t - endedAt) ≤ c.toMilliseconds (s.now - edge) :=
          ClockPeriod.toMilliseconds_mono (by omega)
      _ < hangover := (ClockPeriod.toMilliseconds_lt_iff hpast).mpr hcovers

/-- `in_hangover_` is set between the falling edges and the rising edges, as far as the two are complete. -/
lemma Inv.inHangover_iff (h : s.Inv) (hlast : s.last ≠ .never) :
    s.gate.inHangover = true ↔ (s.setter = .idle ∧ s.gate.speaking = false) ∨ s.setter = .clearInHangover := by
  have hphase := h.phase
  grind [Phase]

lemma Inv.last_ne_never (h : s.Inv) (hcovers : s.call.Covers c hangover s.now) : s.last ≠ .never := by
  intro hlast
  rw [h.call.never hlast] at hcovers
  exact hcovers

/-- The load of `in_hangover_`. -/
lemma Inv.tight_load_iff (h : s.Inv) (hdropper : s.dropper = .loadInHangover) (clockFirst : Bool) :
    s.Tight c hangover (.dropperStep clockFirst) ↔ s.Undisturbed c hangover (.dropperStep clockFirst) := by
  have hload : s.LoadsInHangover (.dropperStep clockFirst) := ⟨hdropper, clockFirst, rfl⟩
  have hanchor : s.operands (.dropperStep clockFirst) = none := by simp [operands, hdropper]
  have htight : s.Tight c hangover (.dropperStep clockFirst) ↔
      (s.call.Covers c hangover s.now → s.gate.inHangover = true) := by
    cases hset : s.gate.inHangover <;>
      simp [Tight, returned, HalfDuplexGate.shouldDropNow, hdropper, hset]
  rw [htight]
  constructor
  · intro hset
    refine ⟨fun _ hcovers => ?_, by simp [hanchor]⟩
    exact (h.inHangover_iff (h.last_ne_never hcovers)).mp (hset hcovers)
  · intro hundisturbed hcovers
    exact (h.inHangover_iff (h.last_ne_never hcovers)).mpr (hundisturbed.unraced hload hcovers)

/-- The comparison with the hangover, which a call makes with its second operand. -/
lemma Inv.tight_compare_iff (h : s.Inv) {clockFirst : Bool} {t endedAt : Int}
    (hreturned : s.returned c hangover (.dropperStep clockFirst) =
      some (decide (c.toMilliseconds (t - endedAt) < hangover)))
    (hoperands : s.operands (.dropperStep clockFirst) = some (t, endedAt)) (hdropper : s.dropper ≠ .loadInHangover)
    (hspeech : s.call ≠ .speaking) (hedge : ∀ edge, s.call = .fell edge → edge ≤ endedAt) (hread : t ≤ s.now)
    (hlate : s.late = true → endedAt ≤ t) :
    s.Tight c hangover (.dropperStep clockFirst) ↔ s.Undisturbed c hangover (.dropperStep clockFirst) := by
  have hdrops : s.call.Covers c hangover s.now → c.toMilliseconds (t - endedAt) < hangover :=
    h.drops_of_covers hspeech hedge hread
  constructor
  · intro htight
    refine ⟨fun hload => absurd hload.1 hdropper, ?_⟩
    intro operands hmem hl
    obtain rfl : (t, endedAt) = operands := by simpa [hoperands] using hmem
    have hpass := (htight _ hreturned).2 hl
    rw [decide_eq_false_iff_not, ClockPeriod.toMilliseconds_lt_iff (hlate hl), not_not] at hpass
    exact hpass
  · intro hundisturbed drop hdrop
    obtain rfl : decide (c.toMilliseconds (t - endedAt) < hangover) = drop := by simpa [hreturned] using hdrop
    refine ⟨fun hcovers => decide_eq_true (hdrops hcovers), fun hl => ?_⟩
    rw [decide_eq_false_iff_not, ClockPeriod.toMilliseconds_lt_iff (hlate hl), not_not]
    exact hundisturbed.anchor _ hoperands hl

/-- A step that returns nothing, or is the load of `speaking_`. -/
lemma Inv.tight_iff_of_other (h : s.Inv) {a : GateAction}
    (hreturned : ∀ drop ∈ s.returned c hangover a, drop = true ∧ s.gate.speaking = true)
    (hload : ¬s.LoadsInHangover a) (hoperands : s.operands a = none) :
    s.Tight c hangover a ↔ s.Undisturbed c hangover a := by
  apply iff_of_true
  · intro drop hdrop
    obtain ⟨rfl, hspeaking⟩ := hreturned drop hdrop
    refine ⟨fun _ => rfl, fun hlate => ?_⟩
    simp [h.quiet hlate] at hspeaking
  · exact ⟨fun hl => absurd hl hload, by simp [hoperands]⟩

lemma Inv.tight_iff (h : s.Inv) (a : GateAction) : s.Tight c hangover a ↔ s.Undisturbed c hangover a := by
  have hknown := h.known
  cases a with
  | dropperStep clockFirst =>
    cases hdropper : s.dropper with
    | idle | loadSpeaking | readOperands =>
      apply h.tight_iff_of_other
      · grind [returned, HalfDuplexGate.shouldDropNow]
      · simp [LoadsInHangover, hdropper]
      · simp [operands, hdropper]
    | loadInHangover => exact h.tight_load_iff hdropper clockFirst
    | loadEndedAt t =>
      simp only [Known, hdropper] at hknown
      obtain ⟨hspeech, hedge, hread, hlate⟩ := hknown
      apply h.tight_compare_iff _ _ _ hspeech hedge hread fun hl => (hlate hl).2
      · simp [returned, HalfDuplexGate.shouldDropNow, hdropper]
      · simp [operands, hdropper]
      · simp [hdropper]
    | readClock endedAt =>
      simp only [Known, hdropper] at hknown
      obtain ⟨hspeech, hedge, hlate⟩ := hknown
      apply h.tight_compare_iff _ _ _ hspeech hedge (Int.le_refl _) hlate
      · simp [returned, HalfDuplexGate.shouldDropNow, hdropper]
      · simp [operands, hdropper]
      · simp [hdropper]
  | tick | setSpeaking | setterStep | shouldDropNow =>
    exact h.tight_iff_of_other (by simp [returned]) (by simp [LoadsInHangover]) rfl

/-- In every run all calls do what the gate is for, if and only if no call is disturbed. -/
theorem tight_iff_undisturbed (c : ClockPeriod) (hangover start : Int) (actions : List GateAction) :
    Runs.Along (step c hangover) (Tight c hangover) { now := start } actions ↔
      Runs.Along (step c hangover) (Undisturbed c hangover) { now := start } actions :=
  Runs.along_congr (I := Inv) (fun _ a h => h.step c hangover a) (fun _ a h => h.tight_iff a) (Inv.init start) actions

/-- A clock of nanoseconds, and a hangover of 200 ms. The first call loads `in_hangover_` before the falling edge has
set it, the second after a new rising edge has cleared it. The third begins 200 ms after the edge, whose clock reading
is 1 ms late. -/
theorem gate_leaks :
    let c : ClockPeriod := { den := 1000000000 }
    ¬Runs.Along (step c 200) (Tight c 200) {}
        [.setSpeaking true, .setterStep, .setSpeaking false, .shouldDropNow, .dropperStep true, .dropperStep true] ∧
      ¬Runs.Along (step c 200) (Tight c 200) {}
        [.setSpeaking true, .setterStep, .setSpeaking false, .setterStep, .setterStep, .setterStep, .shouldDropNow,
          .dropperStep true, .setSpeaking true, .setterStep, .dropperStep true] ∧
      ¬Runs.Along (step c 200) (Tight c 200) {}
        [.setSpeaking true, .setterStep, .setSpeaking false, .tick 1000000, .setterStep, .setterStep, .setterStep,
          .tick 199000000, .shouldDropNow, .dropperStep true, .dropperStep true, .dropperStep true,
          .dropperStep true] := by
  decide +kernel

/-! ### A falling edge that takes no time -/

/-- The clock does not move between the exchange of a falling edge and its clock reading. -/
def Prompt (s : GateWorld) (a : GateAction) : Prop :=
  ∀ ticks, a = .tick ticks → s.setter = .readClock → ticks = 0

/-- The anchor of the hangover is no later than the edge. -/
structure OnTime (s : GateWorld) (edge : Int) : Prop where
  reading : s.setter = .readClock → s.now ≤ edge
  held : ∀ t, s.setter = .storeEndedAt t → t ≤ edge
  stored : s.setter = .storeInHangover ∨ s.gate.inHangover = true → s.gate.endedAt ≤ edge

variable (c hangover) in
/-- What a call that begins after the hangover knows when it has come that far. -/
structure Overdue (s : GateWorld) (edge : Int) : Prop where
  now : c.Elapsed hangover edge s.now
  read : ∀ t, s.dropper = .loadEndedAt t → c.Elapsed hangover edge t
  loaded : ∀ endedAt, s.dropper = .readClock endedAt → endedAt ≤ edge

variable (c hangover) in
structure PromptInv (s : GateWorld) : Prop where
  inv : s.Inv
  onTime : ∀ edge, s.last = .fell edge → s.OnTime edge
  overdue : s.late = true → ∃ edge, s.last = .fell edge ∧ s.Overdue c hangover edge

lemma PromptInv.init (start : Int) : PromptInv c hangover { now := start } where
  inv := .init start
  onTime := by simp
  overdue := by simp

lemma PromptInv.tick (h : s.PromptInv c hangover) {ticks : Nat} (hprompt : s.Prompt (.tick ticks)) :
    PromptInv c hangover { s with now := s.now + ticks } := by
  obtain ⟨hinv, honTime, hoverdue⟩ := h
  refine ⟨hinv.tick ticks, ?_, ?_⟩
  · intro edge hedge
    obtain ⟨hreading, hheld, hstored⟩ := honTime edge hedge
    refine ⟨fun hsetter => ?_, hheld, hstored⟩
    have hzero := hprompt ticks rfl hsetter
    have hle := hreading hsetter
    dsimp only
    omega
  · intro hlate
    obtain ⟨edge, hedge, hnow, hread, hloaded⟩ := hoverdue hlate
    exact ⟨edge, hedge, hnow.mono (by dsimp only; omega), hread, hloaded⟩

lemma PromptInv.exchange (h : s.PromptInv c hangover) (active : Bool) : PromptInv c hangover (s.exchange active) := by
  obtain ⟨hinv, honTime, hoverdue⟩ := h
  have hphase := hinv.phase
  have hquiet := hinv.quiet
  refine ⟨hinv.exchange active, ?_, ?_⟩
  · intro edge hedge
    grind [GateWorld.exchange, HalfDuplexGate.exchange, OnTime, Phase, LastSpeech.fall]
  · intro hlate
    grind [GateWorld.exchange, HalfDuplexGate.exchange, Overdue, Phase, LastSpeech.fall]

lemma PromptInv.setterStep (h : s.PromptInv c hangover) : PromptInv c hangover s.setterStep := by
  obtain ⟨hinv, honTime, hoverdue⟩ := h
  have hphase := hinv.phase
  have hquiet := hinv.quiet
  refine ⟨hinv.setterStep, ?_, ?_⟩
  · intro edge hedge
    have hlast : s.last = .fell edge := by grind [GateWorld.setterStep]
    have h := honTime edge hlast
    cases hsetter : s.setter <;> grind [GateWorld.setterStep, HalfDuplexGate.setSpeaking, OnTime, Phase]
  · intro hlate
    obtain ⟨edge, hedge, hover⟩ := hoverdue (by grind [GateWorld.setterStep])
    refine ⟨edge, ?_, ?_⟩
    · grind [GateWorld.setterStep, Phase]
    · grind [GateWorld.setterStep, Overdue]

lemma PromptInv.beginCall (h : s.PromptInv c hangover) : PromptInv c hangover (s.beginCall c hangover) := by
  have hinv := h.inv.beginCall c hangover
  unfold GateWorld.beginCall at hinv ⊢
  split
  · exact h
  · rename_i hidle
    rw [if_neg hidle] at hinv
    refine ⟨hinv, ?_, ?_⟩
    · intro edge hedge
      obtain ⟨hreading, hheld, hstored⟩ := h.onTime edge hedge
      exact ⟨hreading, hheld, hstored⟩
    · intro hlate
      have hover := (of_decide_eq_true hlate).2
      cases hlast : s.last with
      | never | speaking => simp [hlast, LastSpeech.Over] at hover
      | fell edge =>
        rw [hlast] at hover
        exact ⟨edge, rfl, hover, by simp, by simp⟩

lemma PromptInv.dropperStep (h : s.PromptInv c hangover) (clockFirst : Bool) :
    PromptInv c hangover (s.dropperStep c hangover clockFirst) := by
  obtain ⟨hinv, honTime, hoverdue⟩ := h
  have hknown := hinv.known
  refine ⟨hinv.dropperStep c hangover clockFirst, ?_, ?_⟩
  · intro edge hedge
    have hlast : s.last = .fell edge := by grind [GateWorld.dropperStep]
    have h := honTime edge hlast
    grind [GateWorld.dropperStep, OnTime]
  · intro hlate
    obtain ⟨edge, hedge, hover⟩ := hoverdue (by grind [GateWorld.dropperStep])
    have hon := honTime edge hedge
    refine ⟨edge, ?_, ?_⟩
    · grind [GateWorld.dropperStep]
    · cases hdropper : s.dropper <;>
        grind [GateWorld.dropperStep, HalfDuplexGate.shouldDropNow, Overdue, OnTime, Known]

lemma PromptInv.step (h : s.PromptInv c hangover) {a : GateAction} (hprompt : s.Prompt a) :
    PromptInv c hangover (s.step c hangover a) := by
  cases a with
  | tick ticks => exact h.tick hprompt
  | setSpeaking active => exact h.exchange active
  | setterStep => exact h.setterStep
  | shouldDropNow => exact h.beginCall
  | dropperStep clockFirst => exact h.dropperStep clockFirst

lemma PromptInv.anchor (h : s.PromptInv c hangover) (a : GateAction) :
    ∀ operands ∈ s.operands a, s.late = true → c.Elapsed hangover operands.2 operands.1 := by
  intro operands hoperands hlate
  obtain ⟨edge, hedge, hover⟩ := h.overdue hlate
  have hknown := h.inv.known
  cases a with
  | dropperStep clockFirst =>
    cases hdropper : s.dropper with
    | loadEndedAt t =>
      simp only [Known, hdropper] at hknown
      obtain rfl : (t, s.gate.endedAt) = operands := by simpa [GateWorld.operands, hdropper] using hoperands
      have hset := (hknown.2.2.2 hlate).1
      have hstored := (h.onTime edge hedge).stored (.inr hset)
      exact (hover.read t hdropper).mono (by dsimp only; omega)
    | readClock endedAt =>
      obtain rfl : (s.now, endedAt) = operands := by simpa [GateWorld.operands, hdropper] using hoperands
      have hloaded := hover.loaded endedAt hdropper
      exact hover.now.mono (by dsimp only; omega)
    | _ => simp [GateWorld.operands, hdropper] at hoperands
  | _ => simp [GateWorld.operands] at hoperands

/-- With prompt falling edges only the two races remain. -/
theorem tight_of_prompt {start : Int} {actions : List GateAction}
    (hprompt : Runs.Along (step c hangover) Prompt { now := start } actions)
    (hunraced : Runs.Along (step c hangover) (Unraced c hangover) { now := start } actions) :
    Runs.Along (step c hangover) (Tight c hangover) { now := start } actions :=
  (hprompt.and hunraced).imp (PromptInv c hangover) (fun _ _ h ha => h.step ha.1)
    (fun _ a h ha => (h.inv.tight_iff a).mpr ⟨ha.2, h.anchor a⟩) (.init start)

end GateWorld

end Acva
