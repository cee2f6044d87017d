import Qwen3Asr.Library.Effect
import Qwen3Asr.Library.Greedy

/-! Rows decoded in lock step: one step serves all of them. It takes a token of each row, a filler of one that is
through, and gives back what every row goes on with. Each row is decoded as it would be by itself. -/
namespace Library.LockStep
open Library.Effect Library.Greedy

structure Row (τ : Type) where
  pending : τ
  out : List τ
  finished : Bool

variable {τ σ ε : Type}

def taken (stops : τ → Bool) (fill : τ) (row : Row τ) : Row τ × τ :=
  if row.finished then (row,fill) else
  if stops row.pending then ({row with finished := true},fill)
  else ({row with out := row.out ++ [row.pending]},row.pending)

def resumed (next : List τ) (rows : List (Row τ)) : List (Row τ) :=
  List.zipWith (fun row pending => {row with pending}) rows next

/- At most `left` steps from step `n` on, fewer once all rows are through. -/
def run (step : Nat → List τ → σ → Except ε (List τ × σ)) (stops : τ → Bool) (fill : τ) :
    Nat → Nat → List (Row τ) → σ → Except ε (List (Row τ))
  | 0, _, rows, _ => .ok rows
  | left+1, n, rows, s => do
    if rows.all Row.finished then .ok rows else
    let pairs := rows.map (taken stops fill)
    let (next,s) ← step n (pairs.map Prod.snd) s
    run step stops fill left (n+1) (resumed next (pairs.map Prod.fst)) s

def started (stops : τ → Bool) (pending : τ) : Row τ := ⟨pending,[],stops pending⟩

section Row
variable {choose : List τ → τ} {stops : τ → Bool} {fill : τ} {answer fed : List τ} {left : Nat} {row : Row τ}

/- A row against its own run: it has all of the run's answer, or what was fed for it so far. -/
structure Under (choose : List τ → τ) (stops : τ → Bool) (answer : List τ) (left : Nat) (row : Row τ) (fed : List τ) :
    Prop where
  done : row.finished = true → row.out = answer
  going : row.finished = false → fed = row.out ∧ row.pending = choose fed ∧ greedyFrom choose stops left fed = answer

theorem startedUnder (limit : Nat) {pending : τ} (picked : pending = choose []) :
    Under choose stops (greedy choose stops limit) limit (started stops pending) [] where
  done finished := by
    change stops pending = true at finished
    rw [picked] at finished
    cases limit with
    | zero => rfl
    | succ limit => exact (if_pos finished).symm
  going _ := ⟨rfl,picked,rfl⟩

theorem takenUnder (under : Under choose stops answer (left+1) row fed) {next : τ}
    (picked : next = choose (fed ++ [(taken stops fill row).2])) :
    Under choose stops answer left {(taken stops fill row).1 with pending := next} (fed ++ [(taken stops fill row).2]) := by
  cases finished : row.finished with
  | true =>
    have same : taken stops fill row = (row,fill) := if_pos finished
    rw [same]
    exact ⟨fun _ => under.done finished,fun going => by cases finished.symm.trans going⟩
  | false =>
    have awake : ¬row.finished = true := by simp [finished]
    obtain ⟨rfl,pending,answered⟩ := under.going finished
    rw [greedyFrom,← pending] at answered
    by_cases stop : stops row.pending = true
    · have same : taken stops fill row = ({row with finished := true},fill) := (if_neg awake).trans (if_pos stop)
      rw [if_pos stop] at answered
      rw [same]
      exact ⟨fun _ => answered,fun going => by cases going⟩
    · have same : taken stops fill row = ({row with out := row.out ++ [row.pending]},row.pending) :=
        (if_neg awake).trans (if_neg stop)
      rw [if_neg stop] at answered
      rw [same] at picked ⊢
      exact ⟨fun done => (by cases finished.symm.trans done),fun _ => ⟨rfl,picked,answered⟩⟩

theorem underAnswered (under : Under choose stops answer left row fed) (through : left = 0 ∨ row.finished = true) :
    row.out = answer := by
  cases finished : row.finished with
  | true => exact under.done finished
  | false =>
    rcases through with rfl | done
    · obtain ⟨rfl,_,answered⟩ := under.going finished
      exact answered
    · cases finished.symm.trans done

end Row

section Run
variable {step : Nat → List τ → σ → Except ε (List τ × σ)} {stops : τ → Bool} {fill : τ} {batch limit : Nat}
  {choose : Nat → List τ → τ} {inv : Nat → (Nat → List τ) → σ → Prop}

def Serves (step : Nat → List τ → σ → Except ε (List τ × σ)) (batch limit : Nat) (choose : Nat → List τ → τ)
    (inv : Nat → (Nat → List τ) → σ → Prop) : Prop :=
  ∀ n fed s tokens, inv n fed s → n < limit → tokens.length = batch →
    ∃ next s', step n tokens s = .ok (next,s') ∧ inv (n+1) (fun i => fed i ++ tokens[i]?.toList) s' ∧ next.length = batch ∧
      ∀ (i : Nat) token, tokens[i]? = some token → next[i]? = some (choose i (fed i ++ [token]))

theorem runUnder (serves : Serves step batch limit choose inv) {answers : Nat → List τ} (left : Nat) {n : Nat}
    {fed : Nat → List τ} {s : σ} (holds : inv n fed s) (within : n+left = limit) {rows : List (Row τ)}
    (counted : rows.length = batch)
    (under : ∀ i row, rows[i]? = some row → Under (choose i) stops (answers i) left row (fed i)) :
    ∃ out, run step stops fill left n rows s = .ok out ∧ out.length = batch ∧
      ∀ (i : Nat) row, out[i]? = some row → row.out = answers i := by
  induction left generalizing n fed s rows with
  | zero => exact ⟨rows,rfl,counted,fun i row found => underAnswered (under i row found) (.inl rfl)⟩
  | succ left ih =>
    unfold run
    split
    · next all =>
      have finished : ∀ row ∈ rows, row.finished = true := by simpa using all
      exact ⟨rows,rfl,counted,fun i row found =>
        underAnswered (under i row found) (.inr (finished row (List.mem_of_getElem? found)))⟩
    · have fedCount : ((rows.map (taken stops fill)).map Prod.snd).length = batch := by simp [counted]
      obtain ⟨next,s',ran,rest,length,picked⟩ := serves n fed s _ holds (by omega) fedCount
      have pendings : (resumed next ((rows.map (taken stops fill)).map Prod.fst)).length = batch := by
        simp [resumed,length,counted]
      obtain ⟨out,through,outCount,answered⟩ := ih rest (by omega) pendings fun i row found => by
        unfold resumed at found
        obtain ⟨before,pending,there,here,rfl⟩ := List.getElem?_zipWith_eq_some.mp found
        simp only [List.getElem?_map,Option.map_map] at there
        obtain ⟨first,inside,rfl⟩ := Option.map_eq_some_iff.mp there
        have token : ((rows.map (taken stops fill)).map Prod.snd)[i]? = some (taken stops fill first).2 := by
          simp [inside]
        have choice := picked i _ token
        rw [token]
        exact takenUnder (under i first inside) (Option.some.inj (here.symm.trans choice))
      exact ⟨out,exceptBind.mpr ⟨_,ran,through⟩,outCount,answered⟩

/-- Where every step serves every row, each row ends with its own greedy run. -/
theorem runGreedy (serves : Serves step batch limit choose inv) {s : σ} (holds : inv 0 (fun _ => []) s) {pendings : List τ}
    (counted : pendings.length = batch) (picked : ∀ (i : Nat) pending, pendings[i]? = some pending → pending = choose i []) :
    ∃ out, run step stops fill limit 0 (pendings.map (started stops)) s = .ok out ∧ out.length = batch ∧
      ∀ (i : Nat) row, out[i]? = some row → row.out = greedy (choose i) stops limit :=
  runUnder serves limit holds (Nat.zero_add _) (by simpa using counted) fun i row found => by
    rw [List.getElem?_map] at found
    obtain ⟨pending,there,rfl⟩ := Option.map_eq_some_iff.mp found
    exact startedUnder limit (picked i pending there)

end Run

end Library.LockStep
