import Mathlib.Data.List.Induction
import TensorDataflow.Graph.Error
import TensorDataflow.Proofs.Library.Footprint
/-!
# Dataflow over memory

Computations that each fill one place from others, one after the other, in an order in which nothing
is read before it is made. Every place is then settled once: it ends up as its computation leaves
it, and that is decided by what the places it reads end up as. So the order does not matter, and a
computation that is run again finds its result already there.
-/

namespace TensorDataflow

namespace Dataflow

open Memory

/-- A computation that fills the place of its output from those of its inputs. -/
structure Node where
  output : TensorId
  inputs : List TensorId
  effect : Memory → Memory

def run (nodes : List Node) (m : Memory) : Memory := nodes.foldl (fun m n => n.effect m) m

theorem run_cons (n : Node) (nodes : List Node) (m : Memory) :
    run (n :: nodes) m = run nodes (n.effect m) :=
  rfl

theorem run_append (nodes nodes' : List Node) (m : Memory) :
    run (nodes ++ nodes') m = run nodes' (run nodes m) :=
  List.foldl_append

/-- What a node reads is made neither by itself nor later, and what it makes is not made again. -/
def Arranged (nodes : List Node) : Prop :=
  ∀ front n rest, nodes = front ++ n :: rest →
    (∀ i ∈ n.inputs, i ∉ (n :: rest).map Node.output) ∧ n.output ∉ rest.map Node.output

/-- Places that do not overlap each other or the scratch space. -/
structure Apart (place : TensorId → Set Nat) (scratch : Set Nat) : Prop where
  places : ∀ i j, i ≠ j → ∀ a ∈ place i, a ∉ place j
  scratch : ∀ i, ∀ a ∈ place i, a ∉ scratch

/-- A node reads only what it is said to, and writes only to its output and to scratch space. -/
def Node.Local (place : TensorId → Set Nat) (scratch : Set Nat) (n : Node) : Prop :=
  ∀ m m', (∀ i ∈ n.inputs, AgreeOn (place i) m m') →
    Alike (place n.output) scratch m m' (n.effect m) (n.effect m')

section Orders

variable {place : TensorId → Set Nat} {scratch : Set Nat} (hapart : Apart place scratch)

include hapart

theorem Node.Local.agreeOn {n : Node} (h : n.Local place scratch) {i : TensorId} (hi : i ≠ n.output)
    (m : Memory) : AgreeOn (place i) (n.effect m) m := by
  intro a ha
  exact (h m m fun _ _ _ _ => rfl).kept a (hapart.places i n.output hi a ha) (hapart.scratch i a ha)

theorem agreeOn_run_of_notMem {nodes : List Node} (hlocal : ∀ n ∈ nodes, n.Local place scratch)
    {i : TensorId} (hi : i ∉ nodes.map Node.output) (m : Memory) :
    AgreeOn (place i) (run nodes m) m := by
  induction nodes generalizing m with
  | nil => exact fun _ _ => rfl
  | cons n nodes ih =>
      rw [List.map_cons, List.mem_cons, not_or] at hi
      rw [run_cons]
      exact (ih (fun n' hn' => hlocal n' (List.mem_cons_of_mem _ hn')) hi.2 _).trans
        ((hlocal n List.mem_cons_self).agreeOn hapart hi.1 m)

/-- In the end a node's inputs hold what it read, and its output holds what it made of them. -/
theorem settled_at {front rest : List Node} {n : Node} (harranged : Arranged (front ++ n :: rest))
    (hlocal : ∀ n' ∈ front ++ n :: rest, n'.Local place scratch) (m : Memory) :
    (∀ i ∈ n.inputs, AgreeOn (place i) (run front m) (run (front ++ n :: rest) m)) ∧
      AgreeOn (place n.output) (n.effect (run front m)) (run (front ++ n :: rest) m) := by
  obtain ⟨hinputs, houtput⟩ := harranged front n rest rfl
  have hlater : ∀ n' ∈ n :: rest, n'.Local place scratch :=
    fun n' hn' => hlocal n' (List.mem_append_right _ hn')
  rw [run_append]
  constructor
  · intro i hi
    exact (agreeOn_run_of_notMem hapart hlater (hinputs i hi) _).symm
  · rw [run_cons]
    exact (agreeOn_run_of_notMem hapart
      (fun n' hn' => hlater n' (List.mem_cons_of_mem _ hn')) houtput _).symm

theorem agreeOn_before {front rest : List Node}
    {n : Node} (harranged : Arranged (front ++ n :: rest))
    (hlocal : ∀ n' ∈ front ++ n :: rest, n'.Local place scratch) (m : Memory) :
    AgreeOn (place n.output) (run front m) m := by
  apply agreeOn_run_of_notMem hapart fun n' hn' => hlocal n' (List.mem_append_left _ hn')
  intro hmem
  obtain ⟨n', hn', hsame⟩ := List.mem_map.1 hmem
  obtain ⟨before, after, rfl⟩ := List.append_of_mem hn'
  have honce := (harranged before n' (after ++ n :: rest) (by simp)).2
  rw [hsame] at honce
  exact honce (List.mem_map_of_mem (List.mem_append_right _ List.mem_cons_self))

/-- A node that is run again at the end changes no place. -/
theorem agreeOn_again {nodes : List Node} (harranged : Arranged nodes)
    (hlocal : ∀ n ∈ nodes, n.Local place scratch) {n : Node} (hn : n ∈ nodes) (m : Memory)
    (i : TensorId) :
    AgreeOn (place i) (n.effect (run nodes m)) (run nodes m) := by
  by_cases hi : i = n.output
  · subst hi
    obtain ⟨front, rest, rfl⟩ := List.append_of_mem hn
    obtain ⟨hinputs, houtput⟩ := settled_at hapart harranged hlocal m
    intro a ha
    rcases (hlocal n hn _ _ hinputs).settled a ha with hsame | ⟨_, hleft⟩
    · rw [← hsame]
      exact houtput a ha
    · exact hleft
  · exact (hlocal n hn).agreeOn hapart hi _

/-- Two orders of the same nodes leave the same in every place. -/
theorem agreeOn_of_perm {nodes nodes' : List Node} (hperm : nodes'.Perm nodes)
    (harranged : Arranged nodes) (harranged' : Arranged nodes')
    (hlocal : ∀ n ∈ nodes, n.Local place scratch) (m : Memory) (i : TensorId) :
    AgreeOn (place i) (run nodes m) (run nodes' m) := by
  have hlocal' : ∀ n ∈ nodes', n.Local place scratch := fun n hn => hlocal n (hperm.subset hn)
  have hsame : ∀ j, j ∈ nodes.map Node.output ↔ j ∈ nodes'.map Node.output :=
    fun j => (hperm.map Node.output).mem_iff.symm
  have hunmade : ∀ j, j ∉ nodes.map Node.output →
      AgreeOn (place j) (run nodes m) (run nodes' m) := by
    intro j hj
    exact (agreeOn_run_of_notMem hapart hlocal hj m).trans
      (agreeOn_run_of_notMem hapart hlocal' (fun h => hj ((hsame j).2 h)) m).symm
  -- along the first order: what a node reads is either not made at all or made in front of it
  have hmade : ∀ front rest, nodes = front ++ rest →
      ∀ j ∈ front.map Node.output, AgreeOn (place j) (run nodes m) (run nodes' m) := by
    intro front
    induction front using List.reverseRecOn with
    | nil => exact fun _ _ j hj => absurd hj List.not_mem_nil
    | append_singleton front n ih =>
        intro rest hsplit j hj
        rw [List.append_assoc, List.singleton_append] at hsplit
        rw [List.map_append, List.mem_append] at hj
        rcases hj with hj | hj
        · exact ih (n :: rest) hsplit j hj
        · obtain rfl : j = n.output := by simpa using hj
          have hn : n ∈ nodes := hsplit ▸ List.mem_append_right _ List.mem_cons_self
          obtain ⟨front', rest', hsplit'⟩ := List.append_of_mem (hperm.mem_iff.2 hn)
          have hreads : ∀ k ∈ n.inputs, AgreeOn (place k) (run nodes m) (run nodes' m) := by
            intro k hk
            by_cases hkmade : k ∈ nodes.map Node.output
            · rw [hsplit, List.map_append, List.mem_append] at hkmade
              rcases hkmade with hkmade | hkmade
              · exact ih (n :: rest) hsplit k hkmade
              · exact absurd hkmade ((harranged front n rest hsplit).1 k hk)
            · exact hunmade k hkmade
          obtain ⟨hinputs, houtput⟩ := settled_at hapart (hsplit ▸ harranged) (hsplit ▸ hlocal) m
          obtain ⟨hinputs', houtput'⟩ :=
            settled_at hapart (hsplit' ▸ harranged') (hsplit' ▸ hlocal') m
          have hbefore := agreeOn_before hapart (hsplit ▸ harranged) (hsplit ▸ hlocal) m
          have hbefore' := agreeOn_before hapart (hsplit' ▸ harranged') (hsplit' ▸ hlocal') m
          rw [← hsplit] at hinputs houtput
          rw [← hsplit'] at hinputs' houtput'
          have halike := hlocal n hn (run front m) (run front' m) fun k hk =>
            ((hinputs k hk).trans (hreads k hk)).trans (hinputs' k hk).symm
          have hresult := halike.agreeOn_output (hbefore.trans hbefore'.symm)
          exact (houtput.symm.trans hresult).trans houtput'
  by_cases hi : i ∈ nodes.map Node.output
  · exact hmade nodes [] (List.append_nil nodes).symm i hi
  · exact hunmade i hi

end Orders

end Dataflow

end TensorDataflow
