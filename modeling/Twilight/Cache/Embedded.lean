import Twilight.Cache.Member

/-!
The embedded-reference writes over a cached record: which fields they take, keep or reset.
-/

namespace Twilight.Cache

end Twilight.Cache
