import Mathlib
import Armv4T.Proofs.Cache.Shift
import Armv4T.Proofs.Step.Abreast

/-!
# Steps with shifted caches

Two boards remember shifted decodings (`Remembered.Shifted`) if their caches are shifted against
each other, and so are their references to the current decoding. Such boards find the same
instructions, with decodings cached or not: what they remember only differs in generations
(`Exec.finds_shifted`).
-/

namespace Armv4T

variable {δ : ℕ → ℕ → Word}

namespace Remembered

/-- The second cache is shifted against the first one, and so is the reference to the current
decoding. -/
structure Shifted (δ : ℕ → ℕ → Word) (r r' : Remembered) : Prop where
  current : r'.current = r.current.map (·.shift δ)
  enabled : r'.enabled = r.enabled
  cache : r.cache.Shifted δ r'.cache

lemma tenable_shifted : Tenable (Shifted δ) where
  layout h := h.cache.layout
  forget h := ⟨rfl, h.enabled, h.cache⟩
  clear h := ⟨h.current, h.enabled, h.cache.clear⟩
  invalidatePage h address := ⟨h.current, h.enabled, h.cache.invalidatePage address⟩

end Remembered

/-- What a shifted reference leads to, if there is one. -/
lemma InstructionCache.Shifted.bind_get? {c c' : InstructionCache} (h : c.Shifted δ c')
    (id : Option HandleId) :
    (id.map (·.shift δ)).bind c'.get? = (id.bind c.get?).map (·.shift δ) := by
  cases id with
  | none => rfl
  | some id => exact h.get? id

namespace Exec

open Board (Abreast)
open Remembered (Shifted)

variable {b c : Board}

/-- A search gives shifted results and leaves shifted caches. -/
lemma searched_shifted {executing : Bool} (h : Abreast executing (Shifted δ) b c) (address : Word) :
    (c.searched address).1 =
        (b.searched address).1.map (fun found => (found.1.shift δ, found.2.shift δ)) ∧
      (b.searched address).2.Shifted δ (c.searched address).2 := by
  have henabled : c.core.cacheEnabled = b.core.cacheEnabled := h.remembered.enabled
  have hcache : b.bus.cache.Shifted δ c.bus.cache := h.remembered.cache
  unfold Board.searched
  rw [henabled, h.regs]
  split
  · exact ⟨hcache.find? address _, hcache.touch address⟩
  · exact ⟨rfl, hcache⟩

lemma concur_loadHandle (h : Abreast false (Shifted δ) b c) (address : Word) :
    Concur (fun found found' => found' = (found.1.shift δ, found.2.shift δ))
      (Abreast false (Shifted δ)) (loadHandle address b) (loadHandle address c) := by
  obtain ⟨hfound, hcache⟩ := searched_shifted h address
  have hsome : (c.searched address).1.isSome = (b.searched address).1.isSome := by
    rw [hfound, Option.isSome_map]
  have hafter {cache cache' : InstructionCache} (hcache : cache.Shifted δ cache') :
      Shifted δ ⟨b.core.current, b.core.cacheEnabled, cache⟩
        ⟨c.core.current, c.core.cacheEnabled, cache'⟩ :=
    ⟨h.remembered.current, h.remembered.enabled, hcache⟩
  rcases loadHandle_cases_abreast h hsome with ⟨found, found', hb, hc, hload, hload'⟩ |
    ⟨fault, hload, hload'⟩ | ⟨journal, journal', hload, hload'⟩ <;> rw [hload, hload']
  · rw [hb, hc] at hfound
    refine .ok ?_ (h.remembering (hafter hcache) _ _)
    exact Option.some.inj hfound
  · exact .error fault (h.remembering (hafter hcache) _ _)
  · have hinsert := hcache.insert (b.decoded address)
    refine .ok ?_ (h.remembering (hafter hinsert.2) _ _)
    exact congrArg (·, b.decoded address) hinsert.1

/-- The current decoding of one board is the shifted one of the other. -/
lemma concur_currentHandle (h : Abreast false (Shifted δ) b c) :
    Concur (fun e e' => e' = e.shift δ) (Abreast false (Shifted δ)) (currentHandle b)
      (currentHandle c) := by
  have hcurrent : c.core.current = b.core.current.map (·.shift δ) := h.remembered.current
  have hcache : b.bus.cache.Shifted δ c.bus.cache := h.remembered.cache
  have hlive := hcache.bind_get? b.core.current
  rw [← hcurrent] at hlive
  rcases hb : b.core.current.bind b.bus.cache.get? with _ | e
  · rw [hb] at hlive
    rw [currentHandle_of_dead hb, currentHandle_of_dead hlive,
      h.eq_of_regs Core.nextAddress fun _ => rfl]
    refine (concur_loadHandle h _).bind id ?_
    rintro ⟨id, e⟩ _ rfl b c h
    refine .ok ?_ { h with remembered := ?_ }
    · rfl
    · exact ⟨rfl, h.remembered.enabled, h.remembered.cache⟩
  · rw [hb] at hlive
    obtain ⟨id, hid, hget⟩ := Option.bind_eq_some_iff.mp hb
    obtain ⟨id', hid', hget'⟩ := Option.bind_eq_some_iff.mp hlive
    rw [currentHandle_of_live hid hget, currentHandle_of_live hid' hget']
    refine .ok ?_ h
    rfl

/-- The shifted successor is followed like the successor itself. -/
lemma concur_follow (h : Abreast false (Shifted δ) b c) (source : HandleId)
    (next : Option HandleId) :
    Concur (· = ·) (Abreast false (Shifted δ)) (follow source next b)
      (follow (source.shift δ) (next.map (·.shift δ)) c) := by
  have hcache : b.bus.cache.Shifted δ c.bus.cache := h.remembered.cache
  have hlive := hcache.bind_get? next
  rcases hb : next.bind b.bus.cache.get? with _ | e
  · rw [hb] at hlive
    rw [follow_of_dead source hb, follow_of_dead _ hlive,
      h.eq_of_regs Core.nextAddress fun _ => rfl]
    refine (concur_loadHandle h _).bind id ?_
    rintro ⟨found, e⟩ _ rfl b c h
    have hcache : b.bus.cache.Shifted δ c.bus.cache := h.remembered.cache
    exact .ok rfl { h with
      memory := ⟨h.memory.wiring, h.memory.sizes, h.memory.contents⟩
      remembered := ⟨rfl, h.remembered.enabled, hcache.link source found⟩ }
  · obtain ⟨n, rfl, hget⟩ := Option.bind_eq_some_iff.mp hb
    rw [hb] at hlive
    rw [follow_of_live hget, Option.map_some, follow_of_live hlive]
    exact .ok rfl { h with remembered := ⟨rfl, h.remembered.enabled, hcache⟩ }

lemma concur_followCurrent (h : Abreast false (Shifted δ) b c) (next : Option HandleId) :
    Concur (· = ·) (Abreast false (Shifted δ)) (followCurrent next b)
      (followCurrent (next.map (·.shift δ)) c) := by
  have hforget : Concur (· = ·) (Abreast false (Shifted δ)) (setCurrent none b)
      (setCurrent none c) :=
    .ok rfl { h with remembered := Remembered.tenable_shifted.forget h.remembered }
  have hcurrent : c.core.current = b.core.current.map (·.shift δ) := h.remembered.current
  have henabled : c.core.cacheEnabled = b.core.cacheEnabled := h.remembered.enabled
  have hfollowed : (if c.core.cacheEnabled then c.core.current else none) =
      (if b.core.cacheEnabled then b.core.current else none).map (·.shift δ) := by
    rw [henabled, hcurrent]
    split <;> rfl
  rcases hb : (if b.core.cacheEnabled then b.core.current else none) with _ | id
  · rw [hb] at hfollowed
    rw [followCurrent_of_none _ hb, followCurrent_of_none _ hfollowed]
    exact hforget
  · rw [hb] at hfollowed
    rw [followCurrent_of_some _ hb, followCurrent_of_some _ hfollowed]
    exact concur_follow h id next

/-- Boards with shifted caches find the same instructions. -/
theorem finds_shifted : Finds (Shifted δ) fun h h' => h' = h.shift δ where
  toTenable := Remembered.tenable_shifted
  point := by rintro h _ rfl; rfl
  instruction := by rintro h _ rfl; rfl
  current := concur_currentHandle
  follow := by
    rintro h _ rfl b c hbc
    exact concur_followCurrent hbc h.next

end Exec

end Armv4T
