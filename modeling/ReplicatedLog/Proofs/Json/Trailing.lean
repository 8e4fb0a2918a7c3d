import ReplicatedLog.Proofs.Json.RoundTrip
import Mathlib.Data.List.TakeWhile

/-!
# JSON with white space behind it

A document that is JSON stays the same value when white space follows it.

* `Steady` says that a parser gives back no more bytes than it has got, and that what it makes of
  them does not change when white space follows them; `SteadyOn` that it does so of bytes with a
  given first one, which it may take without looking at it;
* `Steady.bind` and its like put such parsers together;
* `number_steady`, `listOf_steady` and `mapOf_steady`: the parts of values;
* `decode_append_blank`: whole documents.
-/

namespace ReplicatedLog
namespace Json

open Ascii

variable {α β σ : Type} {p : Parser α} {f : α → Parser β} {b : UInt8}

section Steadiness

/-- There is nothing but white space. -/
def Blank (bytes : Bytes) : Prop :=
  ∀ b ∈ bytes, isSpace b = true

theorem bind_eq_ok {bytes : Bytes} {r : β × Bytes} :
    (p >>= f) bytes = .ok r ↔ ∃ a rest, p bytes = .ok (a, rest) ∧ f a rest = .ok r := by
  cases h : p bytes with
  | error err => simp [bind, StateT.bind, h, Except.bind]
  | ok x =>
      obtain ⟨a, rest⟩ := x
      constructor
      · intro hr
        rw [bind_ok h] at hr
        exact ⟨a, rest, rfl, hr⟩
      · rintro ⟨a', rest', heq, hr⟩
        cases heq
        rw [bind_ok h]
        exact hr

/-- The parser gives back no more than it has got, and white space that follows stays behind what is
left. -/
structure Steady (p : Parser α) : Prop where
  shrinks : ∀ {bytes a rest}, p bytes = .ok (a, rest) → rest.length ≤ bytes.length
  stays : ∀ {bytes a rest}, p bytes = .ok (a, rest) → ∀ blanks, Blank blanks →
    p (bytes ++ blanks) = .ok (a, rest ++ blanks)

/-- The parser is steady on bytes with this one in front. -/
structure SteadyOn (b : UInt8) (p : Parser α) : Prop where
  shrinks : ∀ {bytes a rest}, p (b :: bytes) = .ok (a, rest) → rest.length ≤ bytes.length + 1
  stays : ∀ {bytes a rest}, p (b :: bytes) = .ok (a, rest) → ∀ blanks, Blank blanks →
    p (b :: (bytes ++ blanks)) = .ok (a, rest ++ blanks)

/-- The parser accepts nothing. -/
def Refuses (p : Parser α) : Prop :=
  ∀ bytes r, p bytes ≠ .ok r

theorem Refuses.steady (h : Refuses p) : Steady p :=
  ⟨fun hp => absurd hp (h _ _), fun hp => absurd hp (h _ _)⟩

theorem Refuses.bind (h : ∀ a, Refuses (f a)) : Refuses (p >>= f) := by
  intro bytes r hr
  obtain ⟨a, rest, -, hf⟩ := bind_eq_ok.1 hr
  exact h a rest r hf

theorem Refuses.bind_left (h : Refuses p) : Refuses (p >>= f) := by
  intro bytes r hr
  obtain ⟨a, rest, hp, -⟩ := bind_eq_ok.1 hr
  exact h bytes _ hp

theorem refuses_fail (fault : Fault) : Refuses (fail fault : Parser α) := by
  nofun

theorem refuses_throw (err : Error) : Refuses (throw err : Parser α) := by
  nofun

theorem Steady.on (h : Steady p) (b : UInt8) : SteadyOn b p :=
  ⟨h.shrinks, h.stays⟩

theorem Steady.pure (a : α) : Steady (Pure.pure a : Parser α) := by
  constructor
  · rintro bytes _ _ ⟨⟩
    exact Nat.le_refl _
  · rintro bytes _ _ ⟨⟩ blanks -
    rfl

theorem Steady.bind (hp : Steady p) (hf : ∀ a, Steady (f a)) : Steady (p >>= f) := by
  constructor
  · intro bytes c rest h
    obtain ⟨a, rest', hfirst, hsecond⟩ := bind_eq_ok.1 h
    exact Nat.le_trans ((hf a).shrinks hsecond) (hp.shrinks hfirst)
  · intro bytes c rest h blanks hblank
    obtain ⟨a, rest', hfirst, hsecond⟩ := bind_eq_ok.1 h
    exact bind_eq_ok.2 ⟨a, _, hp.stays hfirst blanks hblank, (hf a).stays hsecond blanks hblank⟩

theorem Steady.map (hp : Steady p) (g : α → β) : Steady (do return g (← p)) :=
  hp.bind fun a => .pure (g a)

theorem Steady.ite {c : Prop} [Decidable c] {q : Parser α} (hp : Steady p) (hq : Steady q) :
    Steady (if c then p else q) := by
  split
  · exact hp
  · exact hq

theorem SteadyOn.bind (hp : SteadyOn b p) (hf : ∀ a, Steady (f a)) : SteadyOn b (p >>= f) := by
  constructor
  · intro bytes c rest h
    obtain ⟨a, rest', hfirst, hsecond⟩ := bind_eq_ok.1 h
    exact Nat.le_trans ((hf a).shrinks hsecond) (hp.shrinks hfirst)
  · intro bytes c rest h blanks hblank
    obtain ⟨a, rest', hfirst, hsecond⟩ := bind_eq_ok.1 h
    exact bind_eq_ok.2 ⟨a, _, hp.stays hfirst blanks hblank, (hf a).stays hsecond blanks hblank⟩

theorem steadyOn_skip (b : UInt8) : SteadyOn b skip := by
  constructor
  · rintro bytes _ _ ⟨⟩
    exact Nat.le_succ _
  · rintro bytes _ _ ⟨⟩ blanks -
    rfl

/-- A parser that takes the first byte goes on as it does without it. -/
theorem SteadyOn.skip (b : UInt8) {p : Parser α} (h : Steady p) :
    SteadyOn b (do Json.skip; p) :=
  (steadyOn_skip b).bind fun _ => h

theorem peekOr_bind_cons {bytes tail : Bytes} (h : bytes.dropWhile isSpace = b :: tail)
    (fault : Fault) (f : UInt8 → Parser β) : (peekOr fault >>= f) bytes = f b (b :: tail) := by
  have hpeek : peek bytes = .ok (some b, b :: tail) := by
    rw [peek, h]
    rfl
  have hor : peekOr fault bytes = .ok (b, b :: tail) := by
    rw [peekOr, bind_ok hpeek]
    rfl
  rw [bind_ok hor]

/-- Where there is something to be peeked at, a byte is taken off if anything is. -/
theorem peekOr_bind_ok {fault : Fault} {f : UInt8 → Parser β} {bytes : Bytes} {r : β × Bytes}
    (h : (peekOr fault >>= f) bytes = .ok r) :
    ∃ b tail, bytes.dropWhile isSpace = b :: tail ∧ tail.length < bytes.length ∧
      f b (b :: tail) = .ok r := by
  cases hfirst : bytes.dropWhile isSpace with
  | nil =>
      obtain ⟨b, rest, hor, -⟩ := bind_eq_ok.1 h
      have hpeek : peek bytes = .ok (none, []) := by
        rw [peek, hfirst]
        rfl
      rw [peekOr, bind_ok hpeek] at hor
      cases hor
  | cons b tail =>
      rw [peekOr_bind_cons hfirst] at h
      have hle := (List.dropWhile_sublist isSpace (l := bytes)).length_le
      rw [hfirst] at hle
      exact ⟨b, tail, rfl, hle, h⟩

theorem dropWhile_append_cons {bytes tail : Bytes} (h : bytes.dropWhile isSpace = b :: tail)
    (more : Bytes) : (bytes ++ more).dropWhile isSpace = b :: (tail ++ more) := by
  rw [List.dropWhile_append, h]
  rfl

/-- A parser that passes over white space goes on as it does from the byte behind that. -/
theorem steady_peekOr {fault : Fault} {f : UInt8 → Parser β} (h : ∀ b, SteadyOn b (f b)) :
    Steady (peekOr fault >>= f) := by
  constructor
  · intro bytes c rest hr
    obtain ⟨b, tail, -, hlt, hr⟩ := peekOr_bind_ok hr
    exact Nat.le_trans ((h b).shrinks hr) hlt
  · intro bytes c rest hr blanks hblank
    obtain ⟨b, tail, hfirst, -, hr⟩ := peekOr_bind_ok hr
    rw [peekOr_bind_cons (dropWhile_append_cons hfirst blanks)]
    exact (h b).stays hr blanks hblank

/-- A parser that looks at the byte in front goes on as it does from that byte, and does not tell
white space from the end of the document. -/
theorem steady_front {f : Option UInt8 → Parser β} (hsome : ∀ b, SteadyOn b (f (some b)))
    (hnone : ∀ c rest, f none [] = .ok (c, rest) → rest = [] ∧
      ∀ b bytes, isSpace b = true → f (some b) (b :: bytes) = .ok (c, b :: bytes)) :
    Steady (front >>= f) := by
  have hfront : ∀ bytes, (front >>= f) bytes = f bytes.head? bytes := fun bytes =>
    bind_ok (show front bytes = .ok (bytes.head?, bytes) from rfl)
  constructor
  · intro bytes c rest hr
    rw [hfront] at hr
    cases bytes with
    | nil => exact Nat.le_of_eq (congrArg List.length (hnone c rest hr).1)
    | cons b bytes => exact (hsome b).shrinks hr
  · intro bytes c rest hr blanks hblank
    rw [hfront] at hr ⊢
    cases bytes with
    | cons b bytes => exact (hsome b).stays hr blanks hblank
    | nil =>
        obtain ⟨rfl, hspace⟩ := hnone c rest hr
        cases blanks with
        | nil => exact hr
        | cons b blanks => exact hspace b blanks (hblank b List.mem_cons_self)

/-- The parser looks at no byte. -/
def Blind (p : Parser α) : Prop :=
  ∀ bytes a rest, p bytes = .ok (a, rest) → rest = bytes ∧ ∀ bytes', p bytes' = .ok (a, bytes')

theorem blind_pure (a : α) : Blind (Pure.pure a : Parser α) := by
  rintro bytes _ _ ⟨⟩
  exact ⟨rfl, fun bytes' => rfl⟩

theorem Refuses.blind (h : Refuses p) : Blind p :=
  fun _ _ _ hp => absurd hp (h _ _)

theorem Blind.steady (h : Blind p) : Steady p := by
  constructor
  · intro bytes a rest hp
    exact Nat.le_of_eq (congrArg List.length (h _ _ _ hp).1)
  · intro bytes a rest hp blanks _
    obtain ⟨rfl, hall⟩ := h _ _ _ hp
    exact hall _

/-- A parser that looks at the byte in front, and at no byte if that is white space or missing. -/
theorem steady_front_blind {f : Option UInt8 → Parser β} {q : Parser β}
    (hsome : ∀ b, SteadyOn b (f (some b))) (hq : Blind q) (hnone : f none = q)
    (hspace : ∀ b, isSpace b = true → f (some b) = q) : Steady (front >>= f) := by
  refine steady_front hsome fun c rest h => ?_
  rw [hnone] at h
  obtain ⟨hrest, hall⟩ := hq _ _ _ h
  refine ⟨hrest, fun b bytes hb => ?_⟩
  rw [hspace b hb]
  exact hall _

end Steadiness

section Tokens

theorem keyword_steady (bytes : Bytes) : Steady (keyword bytes) := by
  induction bytes with
  | nil => exact .pure ()
  | cons k ks ih =>
      constructor
      · intro bytes a rest h
        cases bytes with
        | nil => cases h
        | cons b bytes =>
            simp only [keyword] at h
            split at h
            · exact Nat.le_succ_of_le (ih.shrinks h)
            · cases h
      · intro bytes a rest h blanks hblank
        cases bytes with
        | nil => cases h
        | cons b bytes =>
            simp only [keyword, List.cons_append] at h ⊢
            split at h
            next heq =>
              rw [if_pos heq]
              exact ih.stays h blanks hblank
            next => cases h

theorem scanString_steady (next : StringMode → UInt8 → StringStep) (mode : StringMode)
    (acc : Bytes) : Steady (scanString next mode acc) := by
  have hboth : ∀ (bytes : Bytes) (mode : StringMode) (acc : Bytes) {a rest : Bytes},
      scanString next mode acc bytes = .ok (a, rest) →
        rest.length ≤ bytes.length ∧
          ∀ blanks, scanString next mode acc (bytes ++ blanks) = .ok (a, rest ++ blanks) := by
    intro bytes
    induction bytes with
    | nil => nofun
    | cons b bytes ih =>
        intro mode acc a rest h
        simp only [scanString, List.cons_append] at h ⊢
        split at h
        next mode' out _ =>
          exact (ih _ _ h).imp_left Nat.le_succ_of_le
        next =>
          cases h
          exact ⟨Nat.le_succ _, fun blanks => rfl⟩
        next => cases h
  exact ⟨fun h => (hboth _ _ _ h).1, fun h blanks _ => (hboth _ _ _ h).2 blanks⟩

theorem stringBody_steady : Steady stringBody := by
  refine (scanString_steady _ _ _).bind fun bytes => ?_
  split
  · exact .pure _
  · exact (refuses_fail _).steady

theorem mismatch_refuses (wanted : String) : Refuses (mismatch wanted : Parser α) := by
  refine .bind fun first => ?_
  cases first with
  | none => exact refuses_fail _
  | some b =>
      dsimp only
      repeat' split
      all_goals first
        | exact refuses_throw _
        | exact refuses_fail _
        | exact .bind fun _ => refuses_throw _
        | exact .bind fun _ => .bind fun _ => refuses_throw _

theorem truth_steady : Steady truth := by
  refine steady_peekOr fun b => ?_
  split
  · exact .skip b ((keyword_steady _).map _)
  · split
    · exact .skip b ((keyword_steady _).map _)
    · exact (mismatch_refuses _).steady.on b

end Tokens

section Numbers

/-- No number goes on with white space. -/
theorem isDigit_of_isSpace {b : UInt8} :
    isSpace b = true → isDigit b = false ∧ b ≠ dot ∧ b ≠ lowerE ∧ b ≠ upperE :=
  forall_byte
    (P := fun b => isSpace b = true → isDigit b = false ∧ b ≠ dot ∧ b ≠ lowerE ∧ b ≠ upperE)
    (by decide +kernel) b

theorem digits_steady : Steady digits := by
  constructor
  · rintro bytes a rest ⟨⟩
    exact (List.dropWhile_sublist isDigit).length_le
  · rintro bytes a rest ⟨⟩ blanks hblank
    induction bytes with
    | nil =>
        cases blanks with
        | nil => rfl
        | cons b blanks =>
            have hdigit := (isDigit_of_isSpace (hblank b List.mem_cons_self)).1
            simp [digits, hdigit]
    | cons b bytes ih =>
        by_cases hdigit : isDigit b = true
        · simpa [digits, hdigit] using ih
        · simp [digits, hdigit]

/-- Digits have to come next. -/
theorem steady_digits {fault fault' : Fault} {g : Bytes → Parser α} (hg : ∀ ds, Steady (g ds)) :
    Steady (do
      match ← front with
      | none => fail fault
      | some b => if isDigit b then g (← digits) else fail fault') := by
  refine steady_front (fun b => ?_) (by nofun)
  dsimp only
  split
  · exact (digits_steady.bind hg).on b
  · exact (refuses_fail _).steady.on b

theorem realNumber_blind (isNegative : Bool) (significand : Nat) (exponent : Int) :
    Blind (realNumber isNegative significand exponent) := by
  unfold realNumber
  split
  · exact blind_pure _
  · exact (refuses_fail _).blind

theorem wholeNumber_blind (isNegative : Bool) (n : Nat) : Blind (wholeNumber isNegative n) := by
  unfold wholeNumber
  split
  · exact blind_pure _
  · split
    · exact blind_pure _
    · exact realNumber_blind _ _ _

theorem exponentPart_steady (isNegative : Bool) (significand : Nat) (before : Int) :
    Steady (exponentPart isNegative significand before) := by
  unfold exponentPart
  refine steady_front (fun sign => ?_) (by nofun)
  dsimp only
  split
  · exact .skip sign (steady_digits fun ds =>
      .ite (realNumber_blind _ _ _).steady (.ite (refuses_fail _).steady (.pure _)))
  · exact (steady_digits fun ds =>
      .ite (realNumber_blind _ _ _).steady (.ite (refuses_fail _).steady (.pure _))).on sign

theorem afterDigits_steady (isNegative : Bool) (significand : Nat) (exponent : Int) :
    Steady (afterDigits isNegative significand exponent) := by
  unfold afterDigits
  refine steady_front_blind (fun b => ?_) (realNumber_blind isNegative significand exponent) rfl
    fun b hb => ?_
  · split
    · exact .skip b (exponentPart_steady _ _ _)
    · exact .skip b (exponentPart_steady _ _ _)
    · exact (realNumber_blind _ _ _).steady.on b
  · obtain ⟨-, -, hlower, hupper⟩ := isDigit_of_isSpace hb
    split
    next heq => exact absurd (Option.some.inj heq) hlower
    next heq => exact absurd (Option.some.inj heq) hupper
    next => rfl

theorem fractionPart_steady (isNegative : Bool) (significand : Nat) (before : Int) :
    Steady (fractionPart isNegative significand before) := by
  unfold fractionPart
  refine digits_steady.bind fun ds => ?_
  split
  · refine Refuses.steady (.bind fun b => ?_)
    split <;> exact refuses_fail _
  · exact afterDigits_steady _ _ _

/-- Numbers end before white space. -/
theorem number_steady (isNegative : Bool) : Steady (number isNegative) := by
  unfold number
  refine steady_front (fun b => ?_) (by nofun)
  dsimp only
  split
  · exact (refuses_fail _).bind_left.steady.on b
  · refine (digits_steady.bind fun ds => ?_).on b
    split
    · exact (refuses_fail _).bind_left.steady
    · generalize gather 0 ds = gathered
      obtain ⟨s, left⟩ := gathered
      have hwhole : Blind (if left.isEmpty then wholeNumber isNegative s
          else realNumber isNegative s left.length) := by
        split
        · exact wholeNumber_blind _ _
        · exact realNumber_blind _ _ _
      refine steady_front_blind (fun b => ?_) hwhole rfl fun b hb => ?_
      · dsimp only
        split
        · exact .skip b (fractionPart_steady _ _ _)
        · exact .skip b (exponentPart_steady _ _ _)
        · exact .skip b (exponentPart_steady _ _ _)
        · exact hwhole.steady.on b
      · obtain ⟨-, hdot, hlower, hupper⟩ := isDigit_of_isSpace hb
        dsimp only
        split
        next heq => exact absurd (Option.some.inj heq) hdot
        next heq => exact absurd (Option.some.inj heq) hlower
        next heq => exact absurd (Option.some.inj heq) hupper
        next => rfl

end Numbers

section Containers

theorem listGoesOn_steady (first : Bool) : Steady (listGoesOn first) := by
  refine steady_peekOr fun b => ?_
  split
  · exact (Steady.pure _).on b
  · split
    · exact (Steady.pure _).on b
    · split
      · refine .skip b (steady_peekOr fun c => ?_)
        split
        · exact (refuses_fail _).bind_left.steady.on c
        · exact (Steady.pure _).on c
      · exact (refuses_fail _).steady.on b

theorem objectGoesOn_steady (first : Bool) : Steady (objectGoesOn first) := by
  refine steady_peekOr fun b => ?_
  split
  · exact (Steady.pure _).on b
  · split
    · exact (Steady.ite (.pure _) (refuses_fail _).steady).on b
    · split
      · refine .skip b (steady_peekOr fun c => ?_)
        exact (Steady.ite (.pure _) (.ite (refuses_fail _).steady (refuses_fail _).steady)).on c
      · exact (refuses_fail _).steady.on b

theorem endList_steady : Steady endList := by
  refine steady_peekOr fun b => ?_
  split
  · exact steadyOn_skip b
  · split
    · refine Steady.on (Refuses.steady (.bind fun _ => .bind fun c => ?_)) b
      split <;> exact refuses_fail _
    · exact (refuses_fail _).steady.on b

theorem endObject_steady : Steady endObject := by
  refine steady_peekOr fun b => ?_
  split
  · exact steadyOn_skip b
  · exact (Steady.ite (refuses_fail _).steady (refuses_fail _).steady).on b

theorem colonBefore_steady : Steady colonBefore := by
  refine steady_peekOr fun b => ?_
  split
  · exact steadyOn_skip b
  · exact (refuses_fail _).steady.on b

/-- A list that goes on behind an item does so past a comma. -/
theorem listGoesOn_shrinks {bytes rest : Bytes} (h : listGoesOn false bytes = .ok (true, rest)) :
    rest.length < bytes.length := by
  obtain ⟨b, tail, -, hlt, h⟩ := peekOr_bind_ok h
  split at h
  · cases h
  · rw [if_neg Bool.false_ne_true] at h
    split at h
    · rw [bind_ok (skip_cons b tail)] at h
      obtain ⟨c, tail', -, hlt', h⟩ := peekOr_bind_ok h
      split at h
      · exact absurd h ((refuses_fail _).bind_left _ _)
      · cases h
        exact Nat.lt_of_le_of_lt hlt' hlt
    · cases h

/-- An object that goes on behind a member does so past a comma. -/
theorem objectGoesOn_shrinks {bytes rest : Bytes}
    (h : objectGoesOn false bytes = .ok (true, rest)) : rest.length < bytes.length := by
  obtain ⟨b, tail, -, hlt, h⟩ := peekOr_bind_ok h
  split at h
  · cases h
  · rw [if_neg Bool.false_ne_true] at h
    split at h
    · rw [bind_ok (skip_cons b tail)] at h
      obtain ⟨c, tail', -, hlt', h⟩ := peekOr_bind_ok h
      split at h
      · cases h
        exact Nat.lt_of_le_of_lt hlt' hlt
      · split at h <;> cases h
    · cases h

end Containers

section Loops

/-- Takes steps as long as there is more to come. -/
def loop (goesOn : Bool → Parser Bool) (step : σ → Parser σ) : (fuel : Nat) → (first : Bool) → σ →
    Parser σ
  | 0, _, s => return s
  | fuel + 1, first, s => do
      if ← goesOn first then
        let s ← step s
        loop goesOn step fuel false s
      else return s

variable {goesOn : Bool → Parser Bool} {step : σ → Parser σ}

/-- With a byte taken between two steps the fuel lasts, so that white space may follow. -/
theorem loop_stays (hgoes : ∀ first, Steady (goesOn first))
    (hshrinks : ∀ {bytes rest}, goesOn false bytes = .ok (true, rest) → rest.length < bytes.length)
    (hstep : ∀ s, Steady (step s)) {fuel fuel' : Nat} (hle : fuel ≤ fuel') {first : Bool} {s u : σ}
    {bytes rest : Bytes} (hfuel : bytes.length + first.toNat ≤ fuel)
    (h : loop goesOn step fuel first s bytes = .ok (u, rest)) (hrest : rest ≠ []) :
    rest.length ≤ bytes.length ∧ ∀ blanks, Blank blanks →
      loop goesOn step fuel' first s (bytes ++ blanks) = .ok (u, rest ++ blanks) := by
  induction fuel generalizing fuel' first s bytes with
  | zero =>
      obtain rfl : bytes = [] := List.length_eq_zero_iff.1 (by omega)
      cases h
      exact absurd rfl hrest
  | succ fuel ih =>
      obtain ⟨fuel', rfl⟩ := Nat.exists_eq_add_of_le' (Nat.le_trans (Nat.le_add_left 1 fuel) hle)
      obtain ⟨more, rest₁, hmore, h⟩ := bind_eq_ok.1 h
      cases more with
      | false =>
          rw [if_neg Bool.false_ne_true] at h
          cases h
          refine ⟨(hgoes first).shrinks hmore, fun blanks hblank => ?_⟩
          rw [loop, bind_ok ((hgoes first).stays hmore blanks hblank)]
          rfl
      | true =>
          rw [if_pos rfl] at h
          obtain ⟨s', rest₂, hs', h⟩ := bind_eq_ok.1 h
          have hfirst := (hgoes first).shrinks hmore
          have hsecond := (hstep s).shrinks hs'
          have hlasts : rest₂.length + false.toNat ≤ fuel := by
            cases first with
            | true =>
                rw [Bool.toNat_true] at hfuel
                rw [Bool.toNat_false]
                omega
            | false =>
                have hless := hshrinks hmore
                rw [Bool.toNat_false] at hfuel ⊢
                omega
          obtain ⟨hthird, hstays⟩ := ih (Nat.le_of_add_le_add_right hle) hlasts h
          refine ⟨by omega, fun blanks hblank => ?_⟩
          rw [loop, bind_ok ((hgoes first).stays hmore blanks hblank), if_pos rfl,
            bind_ok ((hstep s).stays hs' blanks hblank)]
          exact hstays blanks hblank

/-- A loop to which every byte gives fuel is steady, if something has to stand behind it. -/
theorem steady_loop {last : Parser Unit} (hgoes : ∀ first, Steady (goesOn first))
    (hshrinks : ∀ {bytes rest}, goesOn false bytes = .ok (true, rest) → rest.length < bytes.length)
    (hstep : ∀ s, Steady (step s)) (hlast : Steady last) (hsome : ∀ r, last [] ≠ .ok r) (s : σ)
    (g : σ → α) :
    Steady (do
      let bytes ← get
      let u ← loop goesOn step (bytes.length + 1) true s
      last
      return g u) := by
  have hrun : ∀ {bytes : Bytes} {a : α} {rest : Bytes},
      (do
        let bytes ← get
        let u ← loop goesOn step (bytes.length + 1) true s
        last
        return g u : Parser α) bytes = .ok (a, rest) →
      rest.length ≤ bytes.length ∧ ∀ blanks, Blank blanks →
        (do
          let bytes ← get
          let u ← loop goesOn step (bytes.length + 1) true s
          last
          return g u : Parser α) (bytes ++ blanks) = .ok (a, rest ++ blanks) := by
    intro bytes a rest h
    rw [bind_ok (get_ok bytes)] at h
    obtain ⟨u, rest', hloop, h⟩ := bind_eq_ok.1 h
    obtain ⟨_, rest'', hend, h⟩ := bind_eq_ok.1 h
    cases h
    have hrest : rest' ≠ [] := by
      rintro rfl
      exact hsome _ hend
    refine ⟨?_, fun blanks hblank => ?_⟩
    · have hfuel : bytes.length + true.toNat ≤ bytes.length + 1 := Nat.le_refl _
      have hfirst := (loop_stays hgoes hshrinks hstep (Nat.le_refl _) hfuel hloop hrest).1
      exact Nat.le_trans (hlast.shrinks hend) hfirst
    · have hmore : bytes.length + 1 ≤ (bytes ++ blanks).length + 1 := by
        rw [List.length_append]
        omega
      have hstays :=
        (loop_stays hgoes hshrinks hstep hmore (Nat.le_refl _) hloop hrest).2 blanks hblank
      rw [bind_ok (get_ok _), bind_ok hstays, bind_ok (hlast.stays hend blanks hblank)]
      rfl
  exact ⟨fun h => (hrun h).1, fun h => (hrun h).2⟩

theorem members_eq_loop (read : String → σ → Parser σ) (fuel : Nat) (first : Bool) (s : σ) :
    members read fuel first s =
      loop objectGoesOn (fun s => do
        let k ← key
        read k s) fuel first s := by
  induction fuel generalizing first s with
  | zero => rfl
  | succ fuel ih =>
      simp only [members, loop, bind_assoc, ih]

theorem items_eq_loop (read : Parser α) (fuel : Nat) (first : Bool) (acc : List α) :
    items read fuel first acc = (do
      let found ← loop listGoesOn (fun acc => do return (← read) :: acc) fuel first acc
      return found.reverse) := by
  induction fuel generalizing first acc with
  | zero => rfl
  | succ fuel ih =>
      simp only [items, loop, bind_assoc, ih]
      congr 1
      funext more
      cases more
      · simp
      · simp

theorem endList_nil (r : Unit × Bytes) : endList [] ≠ .ok r := by
  nofun

theorem endObject_nil (r : Unit × Bytes) : endObject [] ≠ .ok r := by
  nofun

theorem key_steady : Steady key := by
  have hkey : ∀ bytes, key bytes = stringBody (bytes.dropWhile isSpace).tail := fun _ => rfl
  have hnone : ∀ r, stringBody [] ≠ .ok r := by nofun
  constructor
  · intro bytes k rest h
    rw [hkey] at h
    have hle := (List.dropWhile_sublist isSpace (l := bytes)).length_le
    have hshrinks := stringBody_steady.shrinks h
    rw [List.length_tail] at hshrinks
    omega
  · intro bytes k rest h blanks hblank
    rw [hkey] at h ⊢
    cases hfirst : bytes.dropWhile isSpace with
    | nil =>
        rw [hfirst] at h
        exact absurd h (hnone _)
    | cons b tail =>
        rw [hfirst] at h
        rw [dropWhile_append_cons hfirst]
        exact stringBody_steady.stays h blanks hblank

theorem listOf_steady {read : Parser α} (h : Steady read) : Steady (listOf read) := by
  refine steady_peekOr fun b => ?_
  split
  · refine .skip b ?_
    simp only [items_eq_loop, bind_assoc, pure_bind]
    exact steady_loop listGoesOn_steady listGoesOn_shrinks (fun acc => h.map _) endList_steady
      endList_nil [] List.reverse
  · exact (mismatch_refuses _).steady.on b

theorem mapOf_steady {read : Parser α} (h : Steady read) (insert : σ → String → α → σ) (start : σ) :
    Steady (mapOf read insert start) := by
  have hmember : ∀ s, Steady (do
      let k ← key
      colonBefore
      return insert s k (← read)) :=
    fun s => key_steady.bind fun k => colonBefore_steady.bind fun _ => h.map _
  refine steady_peekOr fun b => ?_
  split
  · refine .skip b ?_
    simp only [members_eq_loop]
    exact steady_loop objectGoesOn_steady objectGoesOn_shrinks hmember endObject_steady
      endObject_nil start id
  · exact (mismatch_refuses _).steady.on b

end Loops

section Values

/-- Values end before white space. -/
theorem readWithin_steady (depth : Nat) : Steady (Value.readWithin depth) := by
  induction depth with
  | zero => exact (refuses_fail _).steady
  | succ depth ih =>
      refine steady_peekOr fun b => ?_
      split
      · exact .skip b ((keyword_steady _).map _)
      · split
        · exact (truth_steady.map _).on b
        · split
          · exact .skip b ((number_steady true).map _)
          · split
            · exact ((number_steady false).map _).on b
            · split
              · exact .skip b (stringBody_steady.map _)
              · split
                · split
                  · exact (refuses_fail _).bind_left.steady.on b
                  · exact ((listOf_steady ih).map _).on b
                · split
                  · split
                    · exact (refuses_fail _).bind_left.steady.on b
                    · exact ((mapOf_steady ih _ _).map _).on b
                  · exact (refuses_fail _).steady.on b

/-- A document stays the same when white space follows it. -/
theorem decode_append_blank {read : Parser α} (h : Steady read) {document : Bytes} {a : α}
    (hd : decode read document = .ok a) {blanks : Bytes} (hblank : Blank blanks) :
    decode read (document ++ blanks) = .ok a := by
  unfold decode at hd ⊢
  cases hr : read document with
  | error err =>
      rw [hr] at hd
      cases hd
  | ok x =>
      obtain ⟨a', rest⟩ := x
      rw [hr] at hd
      rw [h.stays hr blanks hblank]
      dsimp only at hd ⊢
      split at hd
      next hrest =>
        cases hd
        have hall : (rest ++ blanks).dropWhile isSpace = [] := by
          rw [List.isEmpty_iff, List.dropWhile_eq_nil_iff] at hrest
          rw [List.dropWhile_eq_nil_iff]
          intro b hb
          rcases List.mem_append.1 hb with hb | hb
          · exact hrest b hb
          · exact hblank b hb
        rw [hall]
        rfl
      next => cases hd

end Values

end Json
end ReplicatedLog
