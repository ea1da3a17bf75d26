import DriveLog.Record.Basic
set_option autoImplicit false

namespace DriveLog

structure WeatherClass where
  type : ConditionType
  percent : Nat
  deriving DecidableEq, Repr

namespace WeatherClass

def severity (w : WeatherClass) : Binary64 := .ofInt w.percent

def le (v w : WeatherClass) : Bool :=
  v.type.rank < w.type.rank || v.type.rank == w.type.rank && v.percent ≤ w.percent

/-- Clear and cloudy weather is nothing notable; a code without a meaning has no class. -/
def ofCode? : Int → Option WeatherClass
  | 230 => some ⟨.snow, 100⟩
  | 338 => some ⟨.snow, 80⟩
  | 227 => some ⟨.snow, 70⟩
  | 335 => some ⟨.snow, 60⟩
  | 395 => some ⟨.snow, 55⟩
  | 332 => some ⟨.snow, 50⟩
  | 371 => some ⟨.snow, 45⟩
  | 329 => some ⟨.snow, 40⟩
  | 326 => some ⟨.snow, 30⟩
  | 368 => some ⟨.snow, 20⟩
  | 323 | 392 => some ⟨.snow, 10⟩
  | 179 => some ⟨.snow, 0⟩
  | 359 => some ⟨.rain, 100⟩
  | 308 => some ⟨.rain, 80⟩
  | 305 => some ⟨.rain, 70⟩
  | 389 | 356 => some ⟨.rain, 60⟩
  | 302 => some ⟨.rain, 50⟩
  | 299 => some ⟨.rain, 40⟩
  | 296 => some ⟨.rain, 30⟩
  | 386 | 293 => some ⟨.rain, 20⟩
  | 353 => some ⟨.rain, 15⟩
  | 266 => some ⟨.rain, 10⟩
  | 263 => some ⟨.rain, 5⟩
  | 176 => some ⟨.rain, 0⟩
  | 350 => some ⟨.hail, 100⟩
  | 377 => some ⟨.hail, 60⟩
  | 374 => some ⟨.hail, 30⟩
  | 320 => some ⟨.sleet, 75⟩
  | 365 => some ⟨.sleet, 60⟩
  | 317 => some ⟨.sleet, 45⟩
  | 362 => some ⟨.sleet, 30⟩
  | 182 => some ⟨.sleet, 0⟩
  | 248 => some ⟨.fog, 70⟩
  | 143 => some ⟨.fog, 30⟩
  | 314 => some ⟨.freezingRain, 100⟩
  | 311 => some ⟨.freezingRain, 80⟩
  | 284 => some ⟨.freezingRain, 60⟩
  | 260 => some ⟨.freezingRain, 40⟩
  | 281 => some ⟨.freezingRain, 20⟩
  | 185 => some ⟨.freezingRain, 0⟩
  | 200 | 122 | 119 | 116 | 113 => some ⟨.nothing, 0⟩
  | _ => none

end WeatherClass

end DriveLog
