import Mathlib
import Armv4T.Proofs.Cache.Operations

/-!
# What a reference leads to in later states

A reference into the cache names a slot and a generation of its page. After it has been handed out
for an instruction, operations may make it stale, record successors in its entry, and insert other
instructions. An insertion that hands out the same reference again puts its own instruction behind
the reference, and nothing else does. So in every later state the reference leads to nothing or to
the instruction that it was handed out for, exactly if no such insertion is of another instruction
(`InstructionCache.sameInstruction_iff`).

There are such insertions (`InstructionCache.not_forall_sameInstruction`): mirrored addresses share
a slot, and replacing what is in a slot does not change the generation of its page.
-/

namespace Armv4T

/-- Two handles are of the same instruction: they were decoded for the same set, at the same address
and from the same opcode. -/
def Handle.SameInstruction (h h' : Handle) : Prop := h'.point = h.point ∧ h'.opcode = h.opcode

namespace InstructionCache

open Cache

variable {c : InstructionCache} {id : HandleId} {h e : Handle}

/-- What a reference leads to after an operation is what it led to before, up to a successor, or was
inserted by the operation under this reference. -/
lemma get?_operate {op : Operation} (hget : (c.operate op).get? id = some e) :
    (∃ e₀, c.get? id = some e₀ ∧ e₀.SameInstruction e) ∨
      op = .insert e ∧ (c.insert e).1 = id := by
  have kept (hold : c.get? id = some e) : ∃ e₀, c.get? id = some e₀ ∧ e₀.SameInstruction e :=
    ⟨e, hold, rfl, rfl⟩
  cases op with
  | insert e' =>
    rcases InstructionCache.get?_insert hget with ⟨rfl, rfl⟩ | ⟨-, hold⟩
    · exact .inr ⟨rfl, rfl⟩
    · exact .inl (kept hold)
  | lookup address set => exact .inl (kept (get?_of_get?_touch hget))
  | link source next =>
    rcases get?_link hget with hold | ⟨e₀, rfl, hold, rfl⟩
    · exact .inl (kept hold)
    · exact .inl ⟨e₀, hold, rfl, rfl⟩
  | invalidate address len => exact .inl (kept ((c.marked_invalidate address len).get? hget))
  | clear => exact nomatch (c.get?_clear id).symm.trans hget
  | touch address => exact .inl (kept (get?_of_get?_touch hget))

/-- A reference that leads to an instruction, or to nothing, does so along a run of operations of
which none inserts another instruction under this reference. -/
lemma sameInstruction_of_get? {late : List Operation}
    (hnow : ∀ e, c.get? id = some e → h.SameInstruction e)
    (hinsert : ∀ since e, since ++ [.insert e] <+: late →
      ((c.operateAll since).insert e).1 = id → h.SameInstruction e)
    {since : List Operation} (hsince : since <+: late)
    (hget : (c.operateAll since).get? id = some e) : h.SameInstruction e := by
  induction since using List.reverseRecOn generalizing e with
  | nil => exact hnow e hget
  | append_singleton since op ih =>
    rw [operateAll_append] at hget
    rcases get?_operate hget with ⟨e₀, hold, hpoint, hopcode⟩ | ⟨rfl, hid⟩
    · obtain ⟨hpoint₀, hopcode₀⟩ := ih ((List.prefix_append since [op]).trans hsince) hold
      exact ⟨hpoint.trans hpoint₀, hopcode.trans hopcode₀⟩
    · exact hinsert since e hsince hid

/-- In a cache with any layouts, after any operations, let an insertion or a look-up hand out a
reference for an instruction. Whatever operations follow, the reference leads to nothing or to this
instruction in every state, exactly if no insertion of another one hands out the same reference. -/
theorem sameInstruction_iff {layouts : Fin regionCount → Layout}
    (hlayouts : ∀ i, (layouts i).Regular) (early : List Operation) (op : Operation)
    (hout : ((ofLayouts layouts).operateAll early).handedOut? op = some (id, h))
    (late : List Operation) :
    (∀ since, since <+: late → ∀ e,
      ((ofLayouts layouts).operateAll (early ++ op :: since)).get? id = some e →
        h.SameInstruction e) ↔
    ∀ since e, since ++ [.insert e] <+: late →
      (((ofLayouts layouts).operateAll (early ++ op :: since)).insert e).1 = id →
        h.SameInstruction e := by
  set c := ((ofLayouts layouts).operateAll early).operate op
  have hrun (since : List Operation) :
      (ofLayouts layouts).operateAll (early ++ op :: since) = c.operateAll since :=
    operateAll_append _ early (op :: since)
  have hroomy : ((ofLayouts layouts).operateAll early).Roomy :=
    (roomy_ofLayouts hlayouts).operateAll early
  simp only [hrun]
  constructor
  · intro hall since e hprefix hid
    refine hall _ hprefix e ?_
    rw [operateAll_append, ← hid]
    exact ((hroomy.operate op).operateAll since).get?_insert e
  · intro hinsert since hsince e hget
    refine sameInstruction_of_get? (fun e he => ?_) hinsert hsince hget
    obtain rfl := Option.some.inj ((hroomy.get?_handedOut hout).symm.trans he)
    exact ⟨rfl, rfl⟩

/-- The layout of 256 KiB in pages of 512 bytes for every region. -/
def quarterMegabyte : Fin regionCount → Layout := fun _ => .ofSize 0x40000 9

/-- A reference to an instruction survives the look-up of its mirrored address and a successor. -/
theorem sameInstruction_iff_mirror :
    let h := Handle.decode .arm 0xE3A00001 0x02000000
    let id := ((ofLayouts quarterMegabyte).insert h).1
    (∀ i, (quarterMegabyte i).Regular) ∧
      (ofLayouts quarterMegabyte).handedOut? (.insert h) = some (id, h) ∧
      ∀ since, since <+: [.link id id, .lookup 0x02040000 .arm] → ∀ e,
        ((ofLayouts quarterMegabyte).operateAll (.insert h :: since)).get? id = some e →
          h.SameInstruction e := by
  have hregular : ∀ i, (quarterMegabyte i).Regular := fun _ => Layout.ofSize_regular _ _
  refine ⟨hregular, rfl, (sameInstruction_iff hregular [] (.insert _) rfl _).mpr ?_⟩
  intro since e hprefix
  have hmem := hprefix.subset (List.mem_append_right since (List.mem_singleton_self _))
  simp at hmem

/-- A reference may come to lead to another instruction, which was inserted at a mirrored
address. -/
theorem not_forall_sameInstruction :
    ¬∀ (layouts : Fin regionCount → Layout), (∀ i, (layouts i).Regular) →
      ∀ (early : List Operation) (op : Operation) (id : HandleId) (h : Handle),
        ((ofLayouts layouts).operateAll early).handedOut? op = some (id, h) →
        ∀ (late : List Operation) (e : Handle),
          ((ofLayouts layouts).operateAll (early ++ op :: late)).get? id = some e →
            h.SameInstruction e := by
  let h := Handle.decode .arm 0xE3A00001 0x02000000
  let e := Handle.decode .arm 0xE3A00002 0x02040000
  intro hall
  have hget : ((ofLayouts quarterMegabyte).operateAll [.insert h, .insert e]).get?
      ((ofLayouts quarterMegabyte).insert h).1 = some e := by
    decide +kernel
  have hsame := hall quarterMegabyte (fun _ => Layout.ofSize_regular _ _) [] (.insert h) _ h rfl
    [.insert e] e hget
  exact absurd hsame.2 (by decide)

end InstructionCache

end Armv4T
